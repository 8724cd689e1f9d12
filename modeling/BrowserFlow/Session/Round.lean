import BrowserFlow.Session.Basic

/-!
# One round

A document is run and judged, and the attempt is entered into the journal. If an instruction asks
for data and a script returned none, the model is not asked for a judgement: the round has failed,
the page is looked at, and selectors are tried in place of the one that matched nothing. If the
model cannot judge, the round is taken for a success.
-/

namespace BrowserFlow.Session

/-- What is said of an attempt that returned no data. -/
def nothingFound : String := "提取步骤没有返回任何数据"

/-- The analysis of an attempt that returned no data. -/
def analysisOf (failed : Option String) (candidates : List Candidate) : String :=
  nothingFound ++
    (match failed with
      | some selector => "，选择器 " ++ selector ++ " 没有匹配到元素"
      | none => "") ++
    match candidates with
    | best :: _ => s!"；最佳候选 {best.selector} ({best.count} 个元素)"
    | [] => ""

/-- Looks at the page. -/
def look : Act (Except Fault Digest) := do
  let s ← get
  match ← inWorld (Effect.attempt (Perception.look {} s.memory false)) with
  | .ok (digest, memory) =>
    modify fun s => { s with memory }
    return .ok digest
  | .error f => return .error f

/-- An attempt that returned no data, with what can be learnt from the page. -/
def enriched (a : Attempt) (r : Report) : Act Attempt := do
  match ← look with
  | .error f =>
    inWorld (World.warn ("页面摘要采集失败: " ++ f.message))
    return a
  | .ok digest =>
    let failed := Extraction.lastQuery? r
    let candidates ← byWorld (Ranking.suggest Ranking.sampleSize (some digest) failed
      (Intent.isBulk {} a.intent) Ranking.suggestionLimit)
    return { a with
      digest := some digest
      candidates
      analysis := some (analysisOf failed candidates) }

/-- The judgement on an attempt that returned no data. -/
def emptyVerdict (analysis : Option String) : Verification :=
  { success := false
    analysis := analysis.getD nothingFound
    reason := "提取结果为空，选择器没有匹配到元素"
    verdict := .emptyExtraction }

/-- The judgement where the model gives none. -/
def assumedVerdict (reason : String) : Verification :=
  { success := true
    analysis := "校验服务不可用，默认视为成功"
    reason
    verdict := .assumed
    assumed := true }

/-- What was learnt of the page in the last attempt of a history. -/
def pageAnalysis (history : List Attempt) : Option String := do
  let last ← history.getLast?
  let text := (← last.digest).description
  match last.analysis with
  | none | some "" => return text
  | some analysis => return analysis ++ "\n\n" ++ text

/-- The question to the model whether a document has done what an instruction wants. -/
def question (s : Session) (intent document : String) (r : Report) : String :=
  Prompt.verification intent document r (pageAnalysis s.history)

/-- Asks the model for a judgement. -/
def judge (intent document : String) (r : Report) : Act Verification := do
  let s ← get
  match ← inWorld (Effect.attempt (s.planner.judge (s.question intent document r))) with
  | .ok v => return v
  | .error (.verification reason _) =>
    inWorld (World.warn ("校验不可用，按成功处理: " ++ reason))
    return assumedVerdict reason
  | .error f => throw f

/-- Runs a document, keeping what its steps store. -/
def runDocument (intent document : String) : Act Report := do
  let s ← get
  let actions ← inWorld (Planner.read s.registry document)
  let request : RunRequest := { instruction := some intent }
  let s ← get
  let ((result, context), world) := Execution.run s.executor request s.context actions s.world
  set { s with context, world }
  Effect.lift result

/-- Whether an attempt should have returned data and did not. -/
def lacksData (intent : String) (r : Report) : Bool :=
  Intent.isExtraction {} intent && Extraction.isEmpty r

/-- Judges an attempt. -/
def judged (a : Attempt) (r : Report) : Act Attempt := do
  if lacksData a.intent r then
    say "⚠ 提取结果为空，采集页面结构并测试候选选择器..."
    let a ← enriched a r
    return { a with verification := some (emptyVerdict a.analysis) }
  let v ← judge a.intent a.document r
  return { a with verification := some v, analysis := some v.analysis }

/-- The line on a judgement. -/
def verdictLine (v : Verification) : String :=
  (if v.success then "✓" else "❌") ++ " 校验结论: " ++ v.verdict.name ++ " - " ++ v.reason

/-- Enters an attempt into the journal. -/
def journaled (a : Attempt) (r : Report) : Act Attempt := do
  let s ← get
  let entry ← byWorld (Journal.create s.settings.journal r (.text s.world.page.url) a.digest .null
    (.ofOption .text a.analysis))
  return { a with entryId := some entry.id.plainText }

/-- Runs a document, and goes on to the judgement on it. -/
def executed (intent document : String) : Act Report := do
  enter .execute
  let report ← runDocument intent document
  enter .verify
  return report

/-- Judges an attempt and enters it into the journal. -/
def concluded (a : Attempt) (r : Report) : Act (Attempt × Verification) := do
  let a ← judged a r
  let v := a.verification.getD (emptyVerdict none)
  say (verdictLine v)
  return (← journaled a r, v)

/-- An attempt at an instruction, and the judgement on it. -/
def attempt (intent document : String) : Act (Attempt × Verification) := do
  let report ← executed intent document
  concluded { intent, document, report := some report } report

end BrowserFlow.Session
