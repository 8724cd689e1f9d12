import BrowserFlow.Attempt
import BrowserFlow.Report

/-!
# Requests to the model

Three requests: for a document, for the continuation of a document that has been run, and for a
judgement. The first two show the attempts made so far. If the last of them returned no data they
also hold a warning, with what is known of the page.
-/

namespace BrowserFlow.Prompt

/-!
## Standing instructions

What the model is told in every request: which commands there are, and how a document looks.
-/

/-- The commands, one in a line, and how data is to be extracted. -/
def commandReference : String :=
  "\n".intercalate [
    "AVAILABLE COMMANDS:",
    "- navigate/goto: 打开 URL（\"url\" 或 \x7burl, waitUntil\x7d）",
    "- click: 点击元素（selector 或 \x7bselector, button, clickCount\x7d）",
    "- type: 输入文本（\x7bselector, text, submit\x7d 或 \"selector text\"）",
    "- wait: 等待（selector 或 \x7bselector, timeout\x7d / \x7btime\x7d / \x7burl\x7d）",
    "- screenshot: 截图（文件名或 \x7bpath, fullPage\x7d）",
    "- scroll: 滚动（\x7bto: 百分比\x7d 或 \x7bselector\x7d 或 \x7bby: 像素\x7d）",
    "- evaluate: 执行 JavaScript（\x7bscript\x7d 或脚本字符串），数据提取/抓取一律使用它",
    "- hover: 悬停（selector）",
    "- select: 下拉选择（\x7bselector, value/label/index\x7d）",
    "- fill: 填写表单（\x7bselector, value\x7d 或 \x7bform: \x7bname: value\x7d\x7d）",
    "- assert: 断言（\x7bselector, text/value/visible\x7d）",
    "- store: 保存值供后续 $\x7bNAME\x7d 引用（\x7bas, selector\x7d 或 \x7bas, eval\x7d）",
    "- press: 按键（\"Enter\" 或 \x7bkey, selector\x7d）",
    "",
    "数据提取规则：",
    "- 用户要求 scrape / grab / extract / get 数据时，必须用 evaluate，并让脚本返回数组或对象",
    "- 脚本必须是返回值的 JavaScript 表达式，例如：",
    "  - evaluate: \"Array.from(document.querySelectorAll('h2')).map(el => el.textContent.trim())\"",
    ""]

/-- What the model is and how it has to answer. -/
def instructions : String :=
  "\n".intercalate [
    "你是浏览器自动化工程师，负责把用户的自然语言指令转换成 YAML 工作流。",
    "",
    "输出规则：",
    "1. 只输出合法 YAML，不要 markdown、解释或注释",
    "2. 第一行以短横线 (-) 开头",
    "3. 数组格式，每一步只有一个命令键",
    "4. 使用 2 空格缩进",
    "",
    ""] ++
  commandReference ++
  "\n".intercalate [
    "",
    "指令处理：",
    "- 如果收到 <original-instruction> 和 <follow-up-instruction>，说明原始指令已尝试但失败或不完整，",
    "  用户在后者中补充了说明；两者结合理解完整意图，重点解决上一轮缺失的部分。"]

/-!
## Results for the model

What came of a document, as the model is shown it.
-/

/-- The first of two texts that is there and not empty. -/
def firstText (a b : Option String) (default : String) : String :=
  match a, b with
  | some s, _ => if s.isEmpty then rest b else s
  | none, b => rest b
where
  rest : Option String → String
    | some s => if s.isEmpty then default else s
    | none => default

/-- A step with its outcome, in a line. -/
def stepLine (s : StepReport) : String :=
  let mark := if s.success then "✓" else "✗"
  s!"  {mark} Step {s.number}: {s.kind} - " ++ firstText s.output s.error "No output"

/-- What came of a document that was made for an instruction. -/
def results (r : Report) (intent document : String) : String :=
  "\n".intercalate ([
    "User's original request: \"" ++ intent ++ "\"", "",
    "Workflow YAML:", "\x60\x60\x60yaml", document, "\x60\x60\x60", "",
    "Execution Results:", s!"- Total steps: {r.totalSteps}", s!"- Successful: {r.successfulSteps}",
    s!"- Failed: {r.failedSteps}", s!"- Duration: {r.totalDurationMs}ms", "",
    "Step Details:\n" ++ "\n".intercalate (r.steps.map stepLine)])

/-! ## The three requests -/

/-- What the model is told of an attempt that returned no data. -/
structure Warning where
  /-- The structure of the page. -/
  page : Option String
  /-- Selectors that have been tried on the page. -/
  candidates : Option String

/-- A text that is there and not empty. -/
def nonempty (s : Option String) : Option String :=
  s.filter fun t => !t.isEmpty

/-- The warning after an attempt, if it returned no data. -/
def warning? (last : Option Attempt) (page candidates : Option String) : Option Warning :=
  match last.bind (·.verification) with
  | some v =>
    if v.verdict = .emptyExtraction then some ⟨nonempty page, nonempty candidates⟩ else none
  | none => none

def Warning.text (w : Warning) : String :=
  "IMPORTANT: 上一轮没有提取到任何数据，所用选择器没有匹配到元素。" ++
    (match w.page with
      | some page => "\n\nCURRENT PAGE STRUCTURE:\n" ++ page ++
          "\n\n请使用上面的模式构造可用的选择器。"
      | none => "\n先尝试更宽泛的选择器确认能匹配，再逐步收窄。") ++
    match w.candidates with
      | some candidates =>
        "\n\nRANKED SELECTOR CANDIDATES (tested on the live page):\n" ++ candidates
      | none => ""

/-- The rest of a text after a beginning. -/
def after? (start s : String) : Option String :=
  (Text.dropPrefix? start.toList s.toList).map String.ofList

/-- The instruction. One that adds to the first of the attempts' is shown in two parts. -/
def instruction (intent : String) (history : List Attempt) : String :=
  let plain := "User instruction: " ++ intent
  match history with
  | [] => plain
  | first :: _ =>
    match after? first.intent intent with
    | none | some "" => plain
    | some added =>
      let followUp := String.ofList (added.toList.dropWhile fun c => c = '.' || c = ' ')
      "\n".intercalate [
        "<original-instruction>", first.intent, "</original-instruction>", "",
        "<follow-up-instruction>", followUp, "</follow-up-instruction>", "",
        "Note: The original instruction failed. " ++
          "The user has provided additional clarification above."]

/-- An attempt under its number. -/
def attemptBlock (number : Nat) (a : Attempt) : String :=
  let results := match a.report with
    | some r => [results r a.intent a.document]
    | none => []
  let analysis := (nonempty a.analysis).toList.map ("Analysis: " ++ ·)
  "\n".intercalate ([s!"Attempt {number}:", "YAML:\n" ++ a.document] ++ results ++ analysis)

/-- The parts of a request for a document. -/
def generationParts (intent : String) (history : List Attempt) (page candidates : Option String) :
    List String :=
  let past :=
    if history.isEmpty then []
    else ["PREVIOUS ATTEMPTS AND RESULTS:"] ++
      (history.zipIdx.map fun (a, i) => attemptBlock (i + 1) a) ++
      ["根据以上尝试生成一个改进后的工作流，解决其中的问题。"] ++
      (warning? history.getLast? page candidates).toList.map Warning.text
  [instructions] ++ past ++ [instruction intent history]

/-- A request for a document. -/
def generation (intent : String) (history : List Attempt) (page candidates : Option String) :
    String :=
  "\n\n".intercalate (generationParts intent history page candidates)

/-- What is to be continued. -/
structure Continuation where
  /-- The instruction for which the document was made. -/
  intent : String
  document : String
  url : String
  title : String
  followUp : String

/-- An attempt at a continuation, if it was run. -/
def continuationAttempt? (a : Attempt) : Option String :=
  a.report.map fun r =>
    results r a.intent a.document ++
      match nonempty a.analysis with
      | some analysis => "\nAnalysis: " ++ analysis
      | none => ""

/-- The parts of a request for a continuation. -/
def continuationParts (c : Continuation) (history : List Attempt)
    (page candidates : Option String) : List String :=
  let task := "\n".intercalate [
    "你正在续写一个已经执行成功的工作流，浏览器停留在用户希望继续操作的页面上。", "",
    "EXISTING WORKFLOW:", "Original instruction: \"" ++ c.intent ++ "\"", "Current YAML:",
    c.document, "", "CURRENT STATE:", "- URL: " ++ c.url, "- Page Title: " ++ c.title,
    "- 上面的工作流已经执行完毕，不要重复其中任何步骤", "", "CONTINUATION REQUEST:",
    "\"" ++ c.followUp ++ "\"", "", "规则：", "1. 只生成需要新增的步骤",
    "2. 不要重复已有步骤（例如不要重新导航或重新提交表单）",
    "3. YAML 从第一个新步骤开始，只输出 YAML", "", commandReference]
  let past := history.filterMap continuationAttempt?
  [task] ++
    (if past.isEmpty then []
    else ["PREVIOUS CONTINUATION ATTEMPTS:\n" ++ "\n\n".intercalate past]) ++
    (warning? history.getLast? page candidates).toList.map Warning.text

/-- A request for a continuation. -/
def continuation (c : Continuation) (history : List Attempt) (page candidates : Option String) :
    String :=
  "\n\n".intercalate (continuationParts c history page candidates)

/-- A request for a judgement. -/
def verification (intent document : String) (r : Report) (page : Option String) : String :=
  let pageBlock := match nonempty page with
    | some page => "\nPAGE STRUCTURE FROM PREVIOUS ROUND:\n" ++ page ++ "\n"
    | none => ""
  "\n".intercalate [
    "你要判断一个浏览器自动化工作流是否达成了用户目标。", "",
    "User's request: \"" ++ intent ++ "\"", "", results r intent document, pageBlock,
    "VERIFICATION TASK:", "1. 分析工作流是否完成了用户的要求",
    "2. 检查提取到的数据是否正确、完整", "3. 找出潜在问题或遗漏的步骤", "", "以 JSON 格式回答：",
    "\x7b", "  \"success\": boolean,", "  \"analysis\": \"2-3 句分析\",",
    "  \"reason\": \"成功或失败的简短原因\",",
    "  \"suggestions\": [\"建议 1\", \"建议 2\", \"建议 3\"]", "\x7d", "",
    s!"失败时 suggestions 必须恰好 {Verification.maxSuggestions} 条，" ++
      "每条都是可以直接追加到原始指令后面的具体操作",
    "（例如 \"Press Enter key after typing instead of clicking button\"），" ++
      "不要写“换个选择器”这类空话。"]

end BrowserFlow.Prompt
