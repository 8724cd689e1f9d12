import BrowserFlow.Text.Case
import BrowserFlow.Text.Scan

/-!
# Hints

One sentence of advice for a failed step, chosen by what its error message mentions. The empty
selector stands for no selector.
-/

namespace BrowserFlow.Hint

/-- A word of ASCII letters alone, with at most a line end behind it. -/
def isBareWord (s : String) : Bool :=
  let cs := s.toList
  let body := if cs.getLast? = some '\n' then cs.dropLast else cs
  !body.isEmpty && body.all Char.isAlpha

/-- Advice on how a selector is written. -/
def forSelector (selector : String) : String :=
  if selector.isEmpty then
    "提供一个有效的 CSS 选择器，例如 .button-class 或 #button-id"
  else if Text.includes selector "//" then
    "不支持 XPath 选择器，请改用 CSS 选择器"
  else if isBareWord selector && !(["html", "body", "head"].contains selector) then
    s!"是否漏了 class (.) 或 ID (#) 前缀？试试 .{selector} 或 #{selector}"
  else if Text.includes selector ":contains" then
    ":contains() 不是标准 CSS，改用 :has-text('...')"
  else if Text.beginsWith selector "." && Text.includes selector " " then
    let dotted := String.ofList (selector.toList.map fun c => if c = ' ' then '.' else c)
    s!"class 选择器中的空格可能有问题，多个 class 用点连接: {dotted}"
  else
    s!"确认 {selector} 存在且可见，可以先用 wait 等待它出现"

/-- Advice on the error of a step of some kind that acted on a selector. -/
def forError (message selector kind : String) : String :=
  let lowered := Text.lower message
  let mentions := fun parts : List String => parts.any (Text.includes lowered)
  if mentions ["element not found", "no element matches selector"] then
    forSelector selector
  else if mentions ["timeout", "超时", "waiting failed"] then
    if mentions ["navigation"] || kind == "navigate" then
      "页面加载过慢，试试 waitUntil: domcontentloaded 或 networkidle"
    else if !selector.isEmpty then
      s!"元素 {selector} 在超时时间内没有出现，可以增大 timeout，或检查它是否在 iframe 中"
    else "尝试增大 timeout，或检查网络状况"
  else if mentions ["navigation", "goto", "net::err"] || kind == "navigate" then
    if mentions ["invalid url", "malformed"] then
      "URL 需要包含协议 (http:// 或 https://)"
    else if mentions ["net::err", "failed to load"] then
      "检查网络连接，并确认 URL 可以访问"
    else "换一个 waitUntil 条件，或确认站点是否需要登录"
  else if mentions ["intercept"] then
    "元素被弹窗或遮罩层挡住了，先等待遮罩消失再点击"
  else if mentions ["not an input", "cannot type", "not an <input>"] then
    "确认目标是 <input>、<textarea> 或 contenteditable 元素"
  else if mentions ["frame"] then
    "元素可能在 iframe 内"
  else
    "检查步骤参数，并确认页面已经加载完成"

end BrowserFlow.Hint
