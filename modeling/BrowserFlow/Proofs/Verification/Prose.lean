import BrowserFlow.Proofs.Json.Locality
import BrowserFlow.Verification

/-!
# An object among other text

What stands before an object in an answer makes no difference to the judgement, and what stands
behind it makes none either if it has no closing brace (`ofAnswer_prose`). If it has one, the block
of the answer goes on to the last of them. The object is then followed by more than white space,
the block is not JSON, and the answer is judged by its words, those of the object among them.
-/

namespace BrowserFlow.Verification

open Json

/-! ## The block -/

theorem dropWhile_ne {c : Char} {before : List Char} (h : c ∉ before) (rest : List Char) :
    (before ++ c :: rest).dropWhile (· != c) = c :: rest := by
  have hne : ∀ d ∈ before, (d != c) = true := by
    intro d hd
    rw [bne_iff_ne]
    intro heq
    exact h (heq ▸ hd)
  rw [List.dropWhile_append_of_pos hne, List.dropWhile_cons, bne_self_eq_false,
    if_neg Bool.false_ne_true]

/-- The block of an answer, between the first opening and the last closing brace. -/
theorem block?_eq {answer : String} {before body behind : List Char}
    (h : answer.toList = before ++ '\x7b' :: (body ++ '\x7d' :: behind))
    (hbefore : '\x7b' ∉ before) (hbehind : '\x7d' ∉ behind) :
    block? answer = some (String.ofList ('\x7b' :: (body ++ ['\x7d']))) := by
  have hreverse : ('\x7b' :: (body ++ '\x7d' :: behind)).reverse =
      behind.reverse ++ '\x7d' :: ('\x7b' :: body).reverse := by
    simp
  have hlast : ((behind.reverse ++ '\x7d' :: ('\x7b' :: body).reverse).dropWhile
      (· != '\x7d')).reverse = '\x7b' :: (body ++ ['\x7d']) := by
    rw [dropWhile_ne (by simpa using hbehind)]
    simp
  unfold block?
  rw [h, dropWhile_ne hbefore]
  dsimp only
  rw [hreverse, hlast]
  rfl

/-- Characters among which is `c`, up to its last place. -/
theorem exists_last {c : Char} {cs : List Char} (h : c ∈ cs) :
    ∃ before behind, cs = before ++ c :: behind ∧ c ∉ behind := by
  obtain ⟨xs, ys, hcs, hnot⟩ := List.eq_append_cons_of_mem (List.mem_reverse.mpr h)
  refine ⟨ys.reverse, xs.reverse, ?_, by simpa using hnot⟩
  rw [← List.reverse_reverse cs, hcs]
  simp

/-- White space has no brace in it. -/
theorem notMem_of_isSpace {c : Char} {cs : List Char} (hc : isSpace c = false)
    (h : ∀ d ∈ cs, isSpace d = true) : c ∉ cs := by
  intro hmem
  rw [h c hmem] at hc
  cases hc

/-! ## The judgement -/

theorem ofAnswer_of_object {answer block : String} {entries : List (Value × Value)}
    (hblock : block? answer = some block) (hread : Json.read block = .ok (.map entries)) :
    ofAnswer answer = ofObject (.map entries) := by
  unfold ofAnswer
  rw [hblock, Option.map_some, hread]

theorem ofAnswer_of_malformed {answer block : String} (hblock : block? answer = some block)
    (hread : Json.read block = .error .malformed) : ofAnswer answer = .ok (ofWords answer) := by
  unfold ofAnswer
  rw [hblock, Option.map_some, hread]

/-- An answer with an object in it, behind text without an opening brace, is judged by the object
unless there is a closing brace behind it. -/
theorem ofAnswer_of_spells {answer : String} {before body behind : List Char}
    {entries : List (Value × Value)}
    (h : answer.toList = before ++ '\x7b' :: (body ++ '\x7d' :: behind))
    (hbefore : '\x7b' ∉ before)
    (hspells : Spells value (fun _ => True) ('\x7b' :: (body ++ ['\x7d'])) (.map entries)) :
    ofAnswer answer =
      if '\x7d' ∈ behind then .ok (ofWords answer) else ofObject (.map entries) := by
  by_cases hbrace : '\x7d' ∈ behind
  · rw [if_pos hbrace]
    obtain ⟨more, last, rfl, hlast⟩ := exists_last hbrace
    have hanswer : answer.toList =
        before ++ '\x7b' :: ((body ++ '\x7d' :: more) ++ '\x7d' :: last) := by
      rw [h]
      simp
    have hblock : '\x7b' :: ((body ++ '\x7d' :: more) ++ ['\x7d']) =
        '\x7b' :: (body ++ ['\x7d']) ++ (more ++ ['\x7d']) := by
      simp
    refine ofAnswer_of_malformed (block?_eq hanswer hbefore hlast) ?_
    -- the block has a brace behind the object, and that is no white space
    rw [hblock, hspells.read, if_neg]
    intro hempty
    obtain ⟨ws, hws, hspaces⟩ := skipSpace_split (more ++ ['\x7d'])
    rw [List.isEmpty_iff.mp hempty, List.append_nil] at hws
    refine notMem_of_isSpace (c := '\x7d') (by decide) hspaces ?_
    rw [← hws]
    exact List.mem_append_right more (List.mem_singleton.mpr rfl)
  · rw [if_neg hbrace]
    refine ofAnswer_of_object (block?_eq h hbefore hbrace) ?_
    rw [← List.append_nil ('\x7b' :: (body ++ ['\x7d'])), hspells.read]
    rfl

/-- The judgement of an answer with prose around an object is that of the object alone, if there is
no closing brace behind the object. If there is one, it is the judgement by the words of the whole
answer. -/
theorem ofAnswer_prose {p j q : String} {entries : List (Value × Value)}
    (hp : '\x7b' ∉ p.toList) (hj : Json.read j = .ok (.map entries)) :
    ofAnswer j = ofObject (.map entries) ∧
      ofAnswer (p ++ j ++ q) =
        if '\x7d' ∈ q.toList then .ok (ofWords (p ++ j ++ q)) else ofAnswer j := by
  obtain ⟨before, body, behind, htext, hbefore, hbehind, hspells⟩ := read_map hj
  have hnobrace : '\x7d' ∉ behind := notMem_of_isSpace (by decide) hbehind
  have halone : ofAnswer j = ofObject (.map entries) := by
    rw [ofAnswer_of_spells htext (notMem_of_isSpace (by decide) hbefore) hspells, if_neg hnobrace]
  refine ⟨halone, ?_⟩
  have hwhole : (p ++ j ++ q).toList =
      (p.toList ++ before) ++ '\x7b' :: (body ++ '\x7d' :: (behind ++ q.toList)) := by
    rw [String.toList_append, String.toList_append, htext]
    simp
  have hfirst : '\x7b' ∉ p.toList ++ before := by
    intro hmem
    rcases List.mem_append.mp hmem with hmem | hmem
    · exact hp hmem
    · exact notMem_of_isSpace (by decide) hbefore hmem
  have hiff : '\x7d' ∈ behind ++ q.toList ↔ '\x7d' ∈ q.toList := by
    rw [List.mem_append]
    exact ⟨fun hmem => hmem.resolve_left hnobrace, Or.inr⟩
  rw [ofAnswer_of_spells hwhole hfirst hspells, halone]
  simp only [hiff]

/-- A text that is an object by evaluation. -/
theorem exists_entries {s : String}
    (h : (match Json.read s with
      | .ok (.map _) => true
      | _ => false) = true) : ∃ entries, Json.read s = .ok (.map entries) := by
  split at h
  · rename_i entries hread
    exact ⟨entries, hread⟩
  · cases h

/-- A failure with prose around it stays a failure. -/
theorem ofAnswer_prose_failure :
    ((ofAnswer ("My judgement: " ++ "\x7b\"success\": false\x7d" ++ " (see above)")).toOption.map
      (·.success)) = some false := by
  have hfailure : ((ofAnswer "\x7b\"success\": false\x7d").toOption.map (·.success)) =
      some false := by
    decide +kernel
  obtain ⟨entries, hread⟩ := exists_entries (s := "\x7b\"success\": false\x7d") (by decide +kernel)
  obtain ⟨-, hprose⟩ := ofAnswer_prose (p := "My judgement: ") (q := " (see above)")
    (by decide) hread
  rw [hprose, if_neg (by decide)]
  exact hfailure

/-- A brace behind an object turns the failure that it states into a success. -/
theorem not_ofAnswer_prose_brace :
    ¬ ∀ p j q entries, '\x7b' ∉ p.toList → Json.read j = .ok (.map entries) →
      ofAnswer (p ++ j ++ q) = ofAnswer j := by
  intro h
  have hfailure : ((ofAnswer "\x7b\"success\": false, \"reason\": \"r\"\x7d").toOption.map
      (·.success)) = some false := by
    decide +kernel
  have hsuccess : ((ofAnswer ("" ++ "\x7b\"success\": false, \"reason\": \"r\"\x7d" ++
      " see \x7bx\x7d")).toOption.map (·.success)) = some true := by
    decide +kernel
  obtain ⟨entries, hread⟩ := exists_entries
    (s := "\x7b\"success\": false, \"reason\": \"r\"\x7d") (by decide +kernel)
  rw [h "" _ " see \x7bx\x7d" entries (by decide) hread, hfailure] at hsuccess
  cases hsuccess

end BrowserFlow.Verification
