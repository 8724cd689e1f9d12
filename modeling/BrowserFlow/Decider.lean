import BrowserFlow.Decision
import BrowserFlow.Text.CharClass
import BrowserFlow.Verification

/-!
# Who decides

Decisions come from a fixed policy, from a person at the console, or from a list that was made
beforehand. A person is shown a menu and asked until a line is an option of it; where an option
needs a text they are asked until a line is not blank. Every question takes one line of the input,
and the question and the line are printed.
-/

namespace BrowserFlow

inductive Decider
  /-- Takes the first suggestion after a failure, and saves under a name after a success. -/
  | auto (useSuggestions : Bool) (saveAs : Option String)
  | console
  /-- Gives the decisions of a list one after the other. -/
  | scripted (failures successes : List Decision)

/-- What came of a question: the decision, what was printed, and the input that is left. -/
structure Ruling where
  decision : Except Fault Decision
  printed : String
  inputs : List String

namespace Console

/-- More was printed before. -/
def after (printed : String) (r : Ruling) : Ruling :=
  { r with printed := printed ++ r.printed }

/-- A question for which there is no line left. -/
def unanswered (question : String) : Ruling :=
  ⟨.error .endOfInput, question, []⟩

/-- A question with the line that answers it. -/
def echo (question line : String) : String :=
  question ++ line ++ "\n"

/-- Asks for a text until there is one. -/
def askText (kind : Decision.Kind) (question : String) : List String → Ruling
  | [] => unanswered question
  | line :: rest =>
    let text := Text.trim line
    if text.isEmpty then
      after (echo question line ++ "⚠ 输入不能为空\n") (askText kind question rest)
    else ⟨.ok ⟨kind, some text⟩, echo question line, rest⟩

/-- An option of a menu: a decision, or one that still needs a text. -/
inductive Choice
  | decided (d : Decision)
  | text (kind : Decision.Kind) (question : String)

/-- The question for an option. -/
def question : String := "> "

/-- What an answer is compared with: it has no blanks around it and small letters. -/
def key (line : String) : String :=
  Text.lower (Text.trim line)

/-- Asks for an option of a menu until there is one. -/
def choose (menu : String → Except Fault (Option Choice)) : List String → Ruling
  | [] => unanswered question
  | line :: rest =>
    let shown := echo question line
    match menu (key line) with
    | .error f => ⟨.error f, shown, rest⟩
    | .ok (some (.decided d)) => ⟨.ok d, shown, rest⟩
    | .ok (some (.text kind asked)) => after shown (askText kind asked rest)
    | .ok none => after (shown ++ "❌ 无效选项\n") (choose menu rest)

/-- The suggestion of that number, counted from one. -/
def suggestion? (suggestions : List String) (number : Int) : Option String :=
  if 1 ≤ number then suggestions[(number - 1).toNat]? else none

/-- The options after a failure that are letters. -/
def failureLetter? : String → Option Choice
  | "f" => some (.text .feedback "补充说明: ")
  | "a" => some (.decided { kind := .autofix })
  | "m" => some (.text .modify "新指令: ")
  | "q" => some (.decided { kind := .abandon })
  | _ => none

/-- The options after a failure. Figures that are no decimal digits are refused. -/
def failureMenu (suggestions : List String) (key : String) : Except Fault (Option Choice) :=
  if Text.isFigures key then
    match wholeOfText 10 key (Text.quoted key) with
    | .error e => .error (.invalid e.message)
    | .ok number => .ok ((suggestion? suggestions number).map fun s =>
        .decided ⟨.suggestion, some s⟩)
  else .ok (failureLetter? key)

/-- The options after a success. -/
def successMenu : String → Except Fault (Option Choice)
  | "d" => .ok (some (.decided { kind := .done }))
  | "s" => .ok (some (.text .save "工作流名称: "))
  | "e" => .ok (some (.text .extend "续写指令: "))
  | "r" => .ok (some (.decided { kind := .rerun }))
  | "f" => .ok (some (.text .feedback "改进说明: "))
  | _ => .ok none

/-- Lines with a line end after each. -/
def printedLines (ls : List String) : String :=
  String.join (ls.map (· ++ "\n"))

/-- What a person is shown after a failure. -/
def failureIntro (v : Option Verification) (suggestions : List String) : String :=
  let judged := match v with
    | some v => ["\n分析: " ++ v.analysis, "原因: " ++ v.reason]
    | none => []
  let numbered := suggestions.zipIdx.map fun (s, i) => s!"  {i + 1}. 采用建议: {s}"
  printedLines (judged ++ ["\n下一步怎么做？"] ++ numbered ++
    ["  f. 补充说明后重试", "  a. 自动修复（原指令重试）", "  m. 换一个新指令", "  q. 放弃"])

/-- What a person is shown after a success. -/
def successIntro : String :=
  printedLines ["\n✓ 工作流已通过校验，下一步？", "  d. 完成", "  s. 保存工作流",
    "  e. 在当前页面上继续（只执行新增步骤）", "  r. 再执行一次", "  f. 继续改进"]

/-- Asks what to do after a failure. -/
def onFailure (v : Option Verification) (inputs : List String) : Ruling :=
  let suggestions := (v.map (·.suggestions)).getD []
  after (failureIntro v suggestions) (choose (failureMenu suggestions) inputs)

/-- Asks what to do after a success. -/
def onSuccess (inputs : List String) : Ruling :=
  after successIntro (choose successMenu inputs)

end Console

namespace Decider

/-- The number of decisions after a success that can still be given, at most. A fixed policy has
none of its own. -/
def supply (inputs : List String) : Decider → Nat
  | scripted _ successes => inputs.length + successes.length
  | _ => inputs.length

/-- The policy after a failure. -/
def autoFailure (useSuggestions : Bool) (v : Option Verification) : Decision :=
  match useSuggestions, v.bind (·.suggestions.head?) with
  | true, some s => ⟨.suggestion, some s⟩
  | _, _ => { kind := .autofix }

/-- The policy after a success. -/
def autoSuccess (saveAs : Option String) : Decision :=
  match saveAs with
  | none | some "" => { kind := .done }
  | some name => ⟨.save, some name⟩

/-- The decision after a failure, and who decides from then on. -/
def onFailure (v : Option Verification) (inputs : List String) : Decider → Ruling × Decider
  | auto use saveAs => (⟨.ok (autoFailure use v), "", inputs⟩, auto use saveAs)
  | console => (Console.onFailure v inputs, console)
  | scripted [] successes => (⟨.ok { kind := .abandon }, "", inputs⟩, scripted [] successes)
  | scripted (d :: rest) successes => (⟨.ok d, "", inputs⟩, scripted rest successes)

/-- The decision after a success, and who decides from then on. -/
def onSuccess (inputs : List String) : Decider → Ruling × Decider
  | auto use saveAs => (⟨.ok (autoSuccess saveAs), "", inputs⟩, auto use saveAs)
  | console => (Console.onSuccess inputs, console)
  | scripted failures [] => (⟨.ok { kind := .done }, "", inputs⟩, scripted failures [])
  | scripted failures (d :: rest) => (⟨.ok d, "", inputs⟩, scripted failures rest)

end Decider

end BrowserFlow
