import BrowserFlow.Proofs.Session.Acceptance
import BrowserFlow.Proofs.Session.Call
import BrowserFlow.Proofs.Session.Phases
import BrowserFlow.Proofs.Text.Casing

/-!
# Answers in words

An answer without a JSON object is judged by two words, and whatever stands around them makes no
difference (`ofWords_success_iff`): an answer that says that something is unsuccessful or incorrect
is one that says that it is a success. A round whose judgement is such an answer goes into the phase
of acceptance exactly if the answer holds one of the words (`accepts_iff_praises`).
-/

namespace BrowserFlow

namespace Verification

variable {answer : String}

/-- An answer that is not taken for JSON: in its block there is no object, and no whole number with
too many digits in the place of one. -/
def InWords (answer : String) : Prop :=
  ∀ block, block? answer = some block → (∀ entries, Json.read block ≠ .ok (.map entries)) ∧
    ∀ digits, Json.read block ≠ .error (.tooLong digits)

/-- The words by which an answer is taken for a success. -/
def praise : List String :=
  ["success", "correct"]

/-- One of the words occurs, in any letter case, by itself or inside another word. -/
def Praises (answer : String) : Prop :=
  ∃ word ∈ praise, ∃ part, part <:+: answer.toList ∧ part.map Char.toLower = word.toList

/-- Wherever one of the words occurs a letter stands directly before it. -/
def Disguises (answer : String) : Prop :=
  ∀ word ∈ praise, ∀ before part behind, answer.toList = before ++ part ++ behind →
    part.map Char.toLower = word.toList → ∃ c, before.getLast? = some c ∧ c.isAlpha = true

theorem ofWords_success_iff (answer : String) :
    (ofWords answer).success = true ↔ Praises answer := by
  have hsuccess := Text.includes_lower_iff (s := answer) (w := "success") (by decide) (by decide)
  have hcorrect := Text.includes_lower_iff (s := answer) (w := "correct") (by decide) (by decide)
  have hwords : (ofWords answer).success =
      (Text.includes (Text.lower answer) "success" ||
        Text.includes (Text.lower answer) "correct") := rfl
  rw [hwords, Bool.or_eq_true, hsuccess, hcorrect]
  unfold Praises praise
  simp only [List.mem_cons, List.not_mem_nil, or_false, exists_eq_or_imp, exists_eq_left]

theorem ofAnswer_inWords (h : InWords answer) : ofAnswer answer = .ok (ofWords answer) := by
  rcases ofAnswer_cases answer with
    ⟨block, entries, hfound, hread, -⟩ | ⟨block, digits, hfound, hread, -⟩ | ⟨-, hanswer⟩
  · exact absurd hread ((h block hfound).1 entries)
  · exact absurd hread ((h block hfound).2 digits)
  · exact hanswer

/-- Without braces there is no block. -/
theorem inWords_of_block? (h : block? answer = none) : InWords answer := by
  intro block hblock
  rw [h] at hblock
  cases hblock

end Verification

namespace Session

open Verification

variable {s t : Session} {x : Lap}

/-- What a trial goes into behind the phases of its run. -/
theorem Trial.phases_eq (T : Trial x) {ps : List Phase}
    (h : x.finish.phases = T.recorded.phases ++ ps) :
    x.phases = x.task.opening ++ ([.execute, .verify] ++ ps) := by
  obtain ⟨asked, judged, -, -, hledger⟩ := T.ledger
  have hphases : T.recorded.phases =
      x.start.phases ++ (x.task.opening ++ [.execute, .verify]) :=
    congrArg Ledger.phases hledger
  refine Lap.phases_eq ?_
  rw [h, hphases, List.append_assoc, List.append_assoc]

theorem accept_notMem_opening (task : Task) : Phase.accept ∉ task.opening := by
  unfold Task.opening
  split
  · exact List.not_mem_nil
  · decide

/-- A trial goes into acceptance exactly if its judgement is a success. -/
theorem Trial.accepts_iff (T : Trial x) :
    .accept ∈ x.phases ↔ T.verification.success = true := by
  have hin : ∀ {ps : List Phase}, x.finish.phases = T.recorded.phases ++ ps →
      (.accept ∈ x.phases ↔ .accept ∈ ps) := by
    intro ps h
    rw [T.phases_eq h, List.mem_append, List.mem_append]
    have hopening := accept_notMem_opening x.task
    have hrun : Phase.accept ∉ [Phase.execute, .verify] := by decide
    simp only [hopening, hrun, false_or]
  have hsuccess : .accept ∈ successPhases T.verification ↔ T.verification.success = true := by
    cases hv : T.verification.success with
    | true =>
      rw [successPhases_success hv]
      decide
    | false =>
      rw [successPhases_failure hv]
      decide
  have hafter := T.does
  generalize x.result = r at hafter
  generalize hfinish : x.finish = u at hafter hin
  cases hafter with
  | failed cause ledger => exact (hin ledger.phases).trans hsuccess
  | accepted success whole ledger uses =>
    rw [hin ledger.phases, success]
    decide
  | abandoned failure reasoned ledger =>
    rw [hin ledger.phases, failure]
    decide
  | again more resumes kept ledger =>
    have hretry : Phase.accept ∉ [Phase.retry] := by decide
    rw [hin ledger.phases, List.mem_append, ← hsuccess]
    exact or_iff_left hretry

/-- An answer in words is a judgement, and a success exactly if it holds one of the words, whatever
stands before it. In a call of a session the rounds on which the model answers in words go into
acceptance exactly if the answer does. -/
theorem accepts_iff_praises {c : Call} {r : Except Failure Outcome} (h : c.act.run s = (r, t)) :
    (∀ answer, InWords answer →
      ∃ v, Verification.ofAnswer answer = .ok v ∧ (v.success = true ↔ Praises answer)) ∧
    ∃ stints, Served s c stints r t ∧
      ∀ y ∈ stints, ∀ x ∈ y.laps, ∀ T : Trial x, lacksData x.task.instruction T.report = false →
        ∀ answer, T.answer = .ok answer → InWords answer →
          (T.verification.success = true ↔ Praises answer) ∧
          (.accept ∈ x.phases ↔ Praises answer) := by
  refine ⟨fun answer hwords => ⟨_, ofAnswer_inWords hwords, ofWords_success_iff answer⟩, ?_⟩
  obtain ⟨stints, hserved⟩ := c.served h
  refine ⟨stints, hserved, fun y _ x _ T hlacks answer hanswer hwords => ?_⟩
  have hjudged : judgementOf T.answer = .ok T.verification := T.concludes_attempt.judged hlacks
  have hread : judgementOf (.ok answer) = Verification.ofAnswer answer := rfl
  rw [hanswer, hread, ofAnswer_inWords hwords] at hjudged
  rw [T.accepts_iff, ← Except.ok.inj hjudged]
  exact ⟨ofWords_success_iff answer, ofWords_success_iff answer⟩

/-- A sentence in which one of the words is part of the opposite. -/
def rejection : String :=
  "The result is incorrect."

theorem inWords_rejection : InWords rejection :=
  inWords_of_block? (by decide +kernel)

/-- It is taken for a success, and the only round on it is accepted. -/
theorem accepts_iff_praises_rejection :
    ∃ v o t, Verification.ofAnswer rejection = .ok v ∧ v.success = true ∧
      (Session.run "look").run { brief with
        world := { replies := [.content (some "[]"), .content (some rejection)] } } = (.ok o, t) ∧
      o.state = .accept := by
  generalize hs : ({ brief with
    world := { replies := [.content (some "[]"), .content (some rejection)] } } : Session) = s
  have hreturns : (((Session.run "look").run s).1.map (·.state)).toOption = some .accept := by
    rw [← hs]
    decide +kernel
  generalize hrun : (Session.run "look").run s = p at hreturns
  obtain ⟨r, t⟩ := p
  obtain ⟨v, hread, hsuccess⟩ :=
    (accepts_iff_praises (c := .run "look") hrun).1 rejection inWords_rejection
  have hpraises : Praises rejection :=
    ⟨"correct", by decide, "correct".toList, by decide +kernel, by decide +kernel⟩
  cases r with
  | error f => cases hreturns
  | ok o => exact ⟨v, o, t, hread, hsuccess.2 hpraises, rfl, Option.some.inj hreturns⟩

/-- An answer can be taken for a success although a letter stands before each of the words in it. -/
theorem not_rejected_disguised : ¬ ∀ answer, InWords answer → Disguises answer →
    ∃ v, Verification.ofAnswer answer = .ok v ∧ v.success = false := by
  intro h
  -- the places of the sentence one by one
  have hplaces : ∀ word ∈ praise, ∀ n ≤ rejection.toList.length,
      ((rejection.toList.drop n).take word.toList.length).map Char.toLower = word.toList →
        ∃ c, (rejection.toList.take n).getLast? = some c ∧ c.isAlpha = true := by
    have hchecked : ∀ word ∈ praise, ∀ n ≤ rejection.toList.length,
        ((rejection.toList.drop n).take word.toList.length).map Char.toLower = word.toList →
          (rejection.toList.take n).getLast?.any (·.isAlpha) = true := by
      decide +kernel
    intro word hword n hn hmap
    exact (Option.any_eq_true _ _).1 (hchecked word hword n hn hmap)
  have hdisguises : Disguises rejection := by
    intro word hword before part behind hsplit hmap
    have hlength : part.length = word.toList.length := by rw [← hmap, List.length_map]
    have hpart : (rejection.toList.drop before.length).take word.toList.length = part := by
      rw [hsplit, List.append_assoc, List.drop_left, ← hlength, List.take_left]
    have hbefore : rejection.toList.take before.length = before := by
      rw [hsplit, List.append_assoc, List.take_left]
    have hle : before.length ≤ rejection.toList.length := by
      rw [hsplit, List.length_append, List.length_append]
      omega
    rw [← hbefore]
    refine hplaces word hword before.length hle ?_
    rw [hpart, hmap]
  obtain ⟨v, hread, hfailure⟩ := h rejection inWords_rejection hdisguises
  have hsuccess : ((Verification.ofAnswer rejection).toOption.map (·.success)) = some true := by
    decide +kernel
  rw [hread] at hsuccess
  cases (Option.some.inj hsuccess).symm.trans hfailure

end Session

end BrowserFlow
