import BrowserFlow.Digest.Sample
import BrowserFlow.Proofs.Outcomes
import BrowserFlow.Proofs.Text.Distinct
import Mathlib.Data.List.Forall2

/-!
# Patterns of elements

The patterns of a sample are counted, the rare ones are left out, and the first of the others in a
strict order are kept. How often a name occurs is said of the records alone (`occurrences`), and the
tally has exactly the names that occur, each once and with that number (`mem_tally`). The order is
strict on patterns with different selectors, so that there is one list in order, and a beginning of
it is what comes before the rest (`Grouped`).

Nothing of this depends on the order of the records, and a signature depends only on which classes
an element has. So records that are `Rearranged` have the same patterns.
-/

namespace BrowserFlow

/-! ## Elements -/

namespace Sample

/-- A record of an element. Its tag is a text and its classes are texts, or nothing stands in their
place; its role may be anything. -/
structure IsElement (record : Value) : Prop where
  isRecord : ∃ entries, record = .map entries
  tag : (record.field "tag").isText = true ∨ (record.field "tag").truthy = false
  classes : (∃ tokens, record.field "classes" = .texts tokens) ∨
    (record.field "classes").truthy = false

/-- The tag of a record; the empty text stands for none. -/
def tagName (record : Value) : String :=
  (record.field "tag").textOr ""

/-- The classes of a record. -/
def classNames (record : Value) : List String :=
  (record.field "classes").listedTexts

/-- The signature of the element of a record. -/
def elementSignature (record : Value) : String :=
  Signature.of (tagName record) (classNames record)

/-- The pattern for the role of the element of a record, if it has one. -/
def rolePattern? (record : Value) : Option String :=
  if (record.field "role").truthy then
    some ("[role=\"" ++ (record.field "role").plainText ++ "\"]")
  else none

variable {record : Value} {records : List Value} {s : String}

theorem stableClasses_texts (tokens : List String) :
    stableClasses (tokens.map Value.text) = .ok (tokens.filter Signature.isStable) := by
  induction tokens with
  | nil => rfl
  | cons t tokens ih =>
    rw [List.map_cons, stableClasses, ih]
    cases h : Signature.isStable t with
    | true => simp [h, Except.map]
    | false => simp [h, Except.map]

/-- Classes that do not count may be left out beforehand. -/
theorem of_filter (name : String) (tokens : List String) :
    Signature.of name (tokens.filter Signature.isStable) = Signature.of name tokens := by
  unfold Signature.of
  simp only [List.filter_filter, Bool.and_self]

theorem signatureOf_texts (name : String) (tokens : List String) :
    signatureOf (.text name) (.texts tokens) = .ok (Signature.of name tokens) := by
  unfold signatureOf
  simp only [pure_bind]
  split
  · next hname =>
    simp only [Signature.of, if_pos hname]
    rfl
  · show (stableClasses (tokens.map Value.text) >>= fun classes =>
      .ok (Signature.of name classes)) = _
    rw [stableClasses_texts]
    exact congrArg Except.ok (of_filter name tokens)

/-- What is not true holds no text and no items. -/
theorem nothing_of_not_truthy {v : Value} (h : v.truthy = false) :
    v.textOr "" = "" ∧ v.listedTexts = [] := by
  cases v with
  | text t => exact ⟨by simpa [Value.truthy, Value.textOr, Value.text?] using h, rfl⟩
  | list items =>
    have hitems : items = [] := by simpa [Value.truthy] using h
    exact ⟨rfl, by rw [hitems]; rfl⟩
  | _ => exact ⟨rfl, rfl⟩

theorem listedTexts_texts (tokens : List String) : (Value.texts tokens).listedTexts = tokens := by
  show (tokens.map Value.text).map (Value.textOr "") = tokens
  rw [List.map_map]
  exact List.map_id tokens

theorem IsElement.given_tag (h : IsElement record) :
    (if (record.field "tag").truthy then record.field "tag" else .text "") =
      .text (tagName record) := by
  unfold tagName
  split
  · next htrue =>
    rcases h.tag with htext | hfalse
    · cases hfield : record.field "tag" with
      | text t => rfl
      | _ =>
        rw [hfield] at htext
        cases htext
    · rw [hfalse] at htrue
      cases htrue
  · next hfalse => rw [(nothing_of_not_truthy (Bool.eq_false_iff.2 hfalse)).1]

theorem IsElement.given_classes (h : IsElement record) :
    (if (record.field "classes").truthy then record.field "classes" else .list []) =
      .texts (classNames record) := by
  unfold classNames
  split
  · next htrue =>
    rcases h.classes with ⟨tokens, htokens⟩ | hfalse
    · rw [htokens, listedTexts_texts]
    · rw [hfalse] at htrue
      cases htrue
  · next hfalse =>
    rw [(nothing_of_not_truthy (Bool.eq_false_iff.2 hfalse)).2]
    rfl

theorem IsElement.signature_eq (h : IsElement record) :
    signature record = .ok (elementSignature record) := by
  unfold signature elementSignature
  dsimp only
  rw [h.given_tag, h.given_classes, signatureOf_texts]

/-- The names of the patterns that an element fits. -/
def namesOf (record : Value) : List String :=
  (if (elementSignature record).isEmpty then [] else [elementSignature record]) ++
    (rolePattern? record).toList

theorem IsElement.patternsOf_eq (h : IsElement record) :
    patternsOf record = .ok (namesOf record) := by
  obtain ⟨entries, hentries⟩ := h.isRecord
  have hrole : (if (record.field "role").truthy then
      ["[role=\"" ++ (record.field "role").plainText ++ "\"]"] else []) =
      (rolePattern? record).toList := by
    unfold rolePattern?
    split <;> rfl
  have hsignature := h.signature_eq
  unfold patternsOf namesOf
  rw [hsignature]
  dsimp only
  rw [hrole, hentries]
  rfl

theorem ne_empty_of_mem_namesOf (h : s ∈ namesOf record) : s ≠ "" := by
  unfold namesOf at h
  rcases List.mem_append.1 h with h | h
  · split at h
    · cases h
    · next hsignature =>
      rw [List.mem_singleton.1 h]
      simpa using hsignature
  · unfold rolePattern? at h
    split at h
    · rw [List.mem_singleton.1 h]
      intro hempty
      have hlength := congrArg String.length hempty
      simp [String.length_append] at hlength
    · cases h

/-! ## Counting -/

/-- How many of the records have a pattern: by the signatures of their elements, and by their
roles. -/
def occurrences (records : List Value) (s : String) : Nat :=
  records.countP (elementSignature · = s) + records.countP (rolePattern? · = some s)

theorem count_namesOf (hs : s ≠ "") (record : Value) : (namesOf record).count s =
    (if elementSignature record = s then 1 else 0) +
      (if rolePattern? record = some s then 1 else 0) := by
  have hsignature : (if (elementSignature record).isEmpty then []
      else [elementSignature record]).count s = if elementSignature record = s then 1 else 0 := by
    generalize elementSignature record = signature
    by_cases hempty : signature = ""
    · subst hempty
      rw [if_neg hs.symm]
      rfl
    · rw [if_neg (by simpa using hempty), List.count_singleton]
      simp only [beq_iff_eq]
  have hrole : (rolePattern? record).toList.count s =
      if rolePattern? record = some s then 1 else 0 := by
    cases rolePattern? record with
    | none => rfl
    | some r =>
      rw [Option.toList_some, List.count_singleton]
      simp only [beq_iff_eq, Option.some.injEq]
  rw [namesOf, List.count_append, hsignature, hrole]

/-- A name occurs among the names of all records as often as there are records that have it. -/
theorem count_flatMap_namesOf (hs : s ≠ "") (records : List Value) :
    (records.flatMap namesOf).count s = occurrences records s := by
  induction records with
  | nil => rfl
  | cons record records ih =>
    rw [List.flatMap_cons, List.count_append, ih, count_namesOf hs]
    simp only [occurrences, List.countP_cons, decide_eq_true_eq]
    omega

theorem mem_tally {names : List String} {p : Pattern} :
    p ∈ tally names ↔ p.selector ∈ names ∧ p.count = names.count p.selector := by
  unfold tally
  rw [List.mem_map]
  constructor
  · rintro ⟨s, hs, rfl⟩
    exact ⟨Signature.mem_sorted.1 hs, rfl⟩
  · rintro ⟨hs, hcount⟩
    refine ⟨p.selector, Signature.mem_sorted.2 hs, ?_⟩
    rw [← hcount]

theorem nodup_tally (names : List String) : ((tally names).map (·.selector)).Nodup := by
  unfold tally
  rw [List.map_map]
  exact (List.map_id _).symm ▸ Signature.nodup_sorted names

/-- The order in which names come does not matter for the tally. -/
theorem tally_congr {names names' : List String} (h : names.Perm names') :
    tally names = tally names' := by
  unfold tally
  rw [Signature.sorted_congr fun _ => h.mem_iff]
  simp only [h.count_eq]

end Sample

/-! ## Order -/

namespace Pattern

/-- A pattern comes before another one because it is more frequent, or because it is as frequent and
its selector comes first in alphabetical order. -/
def Precedes (p q : Pattern) : Prop :=
  q.count < p.count ∨ p.count = q.count ∧ p.selector < q.selector

end Pattern

namespace Sample

open Pattern (Precedes)

variable {limits : Digest.Limits} {records records' : List Value} {p q : Pattern}

theorem before_iff : before p q = true ↔
    q.count < p.count ∨ p.count = q.count ∧ p.selector ≤ q.selector := by
  simp [before]

theorem precedes_of_before (h : before p q = true) (hne : p.selector ≠ q.selector) :
    Precedes p q :=
  (before_iff.1 h).imp_right fun ⟨hcount, hle⟩ => ⟨hcount, lt_of_le_of_ne hle hne⟩

theorem before_trans (p q r : Pattern) (hpq : before p q = true) (hqr : before q r = true) :
    before p r = true := by
  rw [before_iff] at hpq hqr ⊢
  rcases hpq with hpq | ⟨hpq, hle⟩
  · left
    omega
  · rcases hqr with hqr | ⟨hqr, hle'⟩
    · left
      omega
    · exact Or.inr ⟨hpq.trans hqr, le_trans hle hle'⟩

theorem before_total (p q : Pattern) : (before p q || before q p) = true := by
  rw [Bool.or_eq_true, before_iff, before_iff]
  rcases Int.lt_trichotomy p.count q.count with h | h | h
  · exact Or.inr (Or.inl h)
  · rcases le_total p.selector q.selector with hle | hle
    · exact Or.inl (Or.inr ⟨h, hle⟩)
    · exact Or.inr (Or.inr ⟨h.symm, hle⟩)
  · exact Or.inl (Or.inl h)

/-- All patterns that are frequent enough, in order. -/
def ranking (limits : Digest.Limits) (records : List Value) : List Pattern :=
  ((tally (records.flatMap namesOf)).filter fun p => limits.least ≤ p.count).mergeSort before

theorem mem_ranking : p ∈ ranking limits records ↔
    (p.selector ∈ records.flatMap namesOf ∧
      p.count = (records.flatMap namesOf).count p.selector) ∧ limits.least ≤ p.count := by
  rw [ranking, List.mem_mergeSort, List.mem_filter, mem_tally, decide_eq_true_iff]

theorem nodup_ranking : ((ranking limits records).map (·.selector)).Nodup := by
  have hsorted := (List.mergeSort_perm ((tally (records.flatMap namesOf)).filter
    fun p => limits.least ≤ p.count) before).map (·.selector)
  exact hsorted.nodup_iff.2 ((nodup_tally _).sublist (List.filter_sublist.map _))

theorem pairwise_ranking : (ranking limits records).Pairwise Precedes := by
  have hdistinct := List.pairwise_map.1 (@nodup_ranking limits records)
  exact ((List.pairwise_mergeSort before_trans before_total _).and hdistinct).imp
    fun h => precedes_of_before h.1 h.2

/-- What the patterns of some records are like. A name that no element and no role gives is no
selector. -/
structure Grouped (limits : Digest.Limits) (records : List Value) (ps : List Pattern) : Prop where
  distinct : (ps.map (·.selector)).Nodup
  counted : ∀ p ∈ ps, p.count = occurrences records p.selector
  frequent : ∀ p ∈ ps, limits.least ≤ p.count
  ordered : ps.Pairwise Precedes
  atMost : 0 ≤ limits.patterns → (ps.length : Int) ≤ limits.patterns
  /-- Every pattern that was kept comes before every frequent one that was not. -/
  first : ∀ s, s ≠ "" → limits.least ≤ occurrences records s → s ∉ ps.map (·.selector) →
    ∀ p ∈ ps, Precedes p ⟨s, occurrences records s⟩
  /-- A frequent one is only left out when there are enough. -/
  full : ∀ s, s ≠ "" → 0 < occurrences records s → limits.least ≤ occurrences records s →
    s ∉ ps.map (·.selector) → 0 ≤ limits.patterns → (ps.length : Int) = limits.patterns

theorem ranked_count (h : p ∈ ranking limits records) :
    p.count = occurrences records p.selector ∧ 0 < occurrences records p.selector := by
  obtain ⟨⟨hmem, hcount⟩, -⟩ := mem_ranking.1 h
  obtain ⟨record, -, hname⟩ := List.mem_flatMap.1 hmem
  have hoccurs := count_flatMap_namesOf (ne_empty_of_mem_namesOf hname) records
  rw [← hoccurs]
  exact ⟨hcount, List.count_pos_iff.2 hmem⟩

theorem mem_ranking_of_frequent {s : String} (hs : s ≠ "") (hoccurs : 0 < occurrences records s)
    (hleast : limits.least ≤ occurrences records s) :
    (⟨s, occurrences records s⟩ : Pattern) ∈ ranking limits records := by
  rw [← count_flatMap_namesOf hs] at hoccurs hleast ⊢
  exact mem_ranking.2 ⟨⟨List.count_pos_iff.1 hoccurs, rfl⟩, hleast⟩

theorem grouped_ranking (limits : Digest.Limits) (records : List Value) :
    Grouped limits records (upTo limits.patterns (ranking limits records)) := by
  obtain ⟨omitted, hsplit⟩ := upTo_isPrefix limits.patterns (ranking limits records)
  set ps := upTo limits.patterns (ranking limits records) with hps
  have hmem : ∀ p ∈ ps, p ∈ ranking limits records := fun p hp =>
    hsplit ▸ List.mem_append_left omitted hp
  have homitted : ∀ s, s ≠ "" → 0 < occurrences records s →
      limits.least ≤ occurrences records s → s ∉ ps.map (·.selector) →
      (⟨s, occurrences records s⟩ : Pattern) ∈ omitted := by
    intro s hs hoccurs hleast hnot
    have hall := mem_ranking_of_frequent hs hoccurs hleast
    rw [← hsplit] at hall
    rcases List.mem_append.1 hall with hkept | homitted
    · exact absurd (List.mem_map_of_mem hkept) hnot
    · exact homitted
  constructor
  case distinct =>
    have hdistinct := @nodup_ranking limits records
    rw [← hsplit, List.map_append] at hdistinct
    exact (List.nodup_append.1 hdistinct).1
  case counted => exact fun p hp => (ranked_count (hmem p hp)).1
  case frequent => exact fun p hp => (mem_ranking.1 (hmem p hp)).2
  case ordered =>
    have hordered := @pairwise_ranking limits records
    rw [← hsplit] at hordered
    exact (List.pairwise_append.1 hordered).1
  case atMost =>
    intro hlimit
    obtain ⟨n, hn⟩ := Int.eq_ofNat_of_zero_le hlimit
    rw [hps, hn, upTo_natCast]
    exact_mod_cast List.length_take_le n _
  case first =>
    intro s hs hleast hnot p hp
    rcases Nat.eq_zero_or_pos (occurrences records s) with hnone | hoccurs
    -- what does not occur at all comes behind everything that does
    · obtain ⟨hcount, hpos⟩ := ranked_count (hmem p hp)
      left
      dsimp only
      omega
    · have hordered := @pairwise_ranking limits records
      rw [← hsplit] at hordered
      exact (List.pairwise_append.1 hordered).2.2 p hp _ (homitted s hs hoccurs hleast hnot)
  case full =>
    intro s hs hoccurs hleast hnot hlimit
    obtain ⟨n, hn⟩ := Int.eq_ofNat_of_zero_le hlimit
    have hlonger : ps.length < (ranking limits records).length := by
      rw [← hsplit, List.length_append]
      have := List.length_pos_of_mem (homitted s hs hoccurs hleast hnot)
      omega
    rw [hps, hn, upTo_natCast, List.length_take] at hlonger ⊢
    omega

/-! ## Other orders -/

/-- An element that differs from that of a record only in the order of its classes, or in how often
they are written. -/
structure Alike (record record' : Value) : Prop where
  isElement : IsElement record'
  tag : record'.field "tag" = record.field "tag"
  role : record'.field "role" = record.field "role"
  classes : ∀ c, c ∈ classNames record' ↔ c ∈ classNames record

/-- Records in another order, with their classes in another order or repeated. -/
def Rearranged (records records' : List Value) : Prop :=
  ∃ permuted, records.Perm permuted ∧ List.Forall₂ Alike permuted records'

theorem of_congr {name : String} {classes classes' : List String}
    (h : ∀ c, c ∈ classes' ↔ c ∈ classes) :
    Signature.of name classes' = Signature.of name classes := by
  have hsorted : Signature.sorted (classes'.filter Signature.isStable) =
      Signature.sorted (classes.filter Signature.isStable) :=
    Signature.sorted_congr fun c => by rw [List.mem_filter, List.mem_filter, h]
  unfold Signature.of
  rw [hsorted]

theorem Alike.namesOf_eq {record record' : Value} (h : Alike record record') :
    namesOf record' = namesOf record := by
  have hsignature : elementSignature record' = elementSignature record := by
    unfold elementSignature tagName
    rw [h.tag, of_congr h.classes]
  unfold namesOf rolePattern?
  rw [hsignature, h.role]

theorem Rearranged.names_perm (h : Rearranged records records') :
    (records.flatMap namesOf).Perm (records'.flatMap namesOf) := by
  obtain ⟨permuted, hperm, halike⟩ := h
  have hsame : permuted.flatMap namesOf = records'.flatMap namesOf := by
    clear hperm
    induction halike with
    | nil => rfl
    | cons hone _ ih => rw [List.flatMap_cons, List.flatMap_cons, hone.namesOf_eq, ih]
  rw [← hsame]
  exact hperm.flatMap_right namesOf

theorem ranking_congr (h : Rearranged records records') :
    ranking limits records' = ranking limits records := by
  unfold ranking
  rw [tally_congr h.names_perm]

theorem Rearranged.isElement (h : Rearranged records records') :
    ∀ r ∈ records', IsElement r := by
  obtain ⟨permuted, -, halike⟩ := h
  intro r hr
  induction halike with
  | nil => cases hr
  | cons hone _ ih =>
    rcases List.mem_cons.1 hr with rfl | hr
    · exact hone.isElement
    · exact ih hr

theorem Rearranged.length_eq (h : Rearranged records records') :
    records'.length = records.length := by
  obtain ⟨permuted, hperm, halike⟩ := h
  rw [← halike.length_eq, hperm.length_eq]

theorem patterns_eq (hlength : (records.length : Int) ≤ limits.sample)
    (h : ∀ r ∈ records, IsElement r) :
    patterns limits records = .ok (upTo limits.patterns (ranking limits records)) := by
  have hnames : records.mapM patternsOf = .ok (records.map namesOf) := by
    have hread := mapM_eq_ok (g := id) fun r hr => (h r hr).patternsOf_eq
    rwa [List.map_id] at hread
  unfold patterns
  rw [upTo_of_length_le hlength, hnames]
  show Except.ok _ = _
  rw [ranking, List.flatMap_def]

/-- The patterns of the elements of a sample are those that occur often enough, with the number of
their occurrences, in a strict order as far as the limit goes. Neither the order of the records nor
that of the classes of one of them, nor how often a class is written, changes them. -/
theorem patterns_grouped (limits : Digest.Limits) (records : List Value)
    (hlength : (records.length : Int) ≤ limits.sample) (h : ∀ r ∈ records, IsElement r) :
    ∃ ps, patterns limits records = .ok ps ∧ Grouped limits records ps ∧
      ∀ records', Rearranged records records' → patterns limits records' = .ok ps := by
  refine ⟨_, patterns_eq hlength h, grouped_ranking limits records, fun records' hre => ?_⟩
  rw [patterns_eq (hre.length_eq ▸ hlength) hre.isElement, ranking_congr hre]

/-- A record as a page reports it. -/
def elementRecord (tag : String) (classes : List String) (role : Value) : Value :=
  .record [("tag", .text tag), ("classes", .texts classes), ("role", role)]

theorem isElement_elementRecord (tag : String) (classes : List String) (role : Value) :
    IsElement (elementRecord tag classes role) where
  isRecord := ⟨_, rfl⟩
  tag := Or.inl rfl
  classes := Or.inl ⟨classes, rfl⟩

/-- Two cards and a row between them, in a list and with a class that a tool made up. -/
def cards : List Value :=
  [elementRecord "DIV" ["product", "css-1x2y3z", "card"] (.text "listitem"),
    elementRecord "tr" [] .null, elementRecord "div" ["card", "product"] (.text "listitem")]

theorem isElement_of_mem_cards : ∀ r ∈ cards, IsElement r := by
  intro r hr
  simp only [cards, List.mem_cons, List.not_mem_nil, or_false] at hr
  rcases hr with rfl | rfl | rfl
  all_goals exact isElement_elementRecord _ _ _

/-- The cards have the same patterns from the last record to the first. -/
theorem patterns_grouped_cards :
    (cards.length : Int) ≤ ({} : Digest.Limits).sample ∧ (∀ r ∈ cards, IsElement r) ∧
    ∃ ps, patterns {} cards = .ok ps ∧ Grouped {} cards ps ∧
      patterns {} cards.reverse = .ok ps := by
  have hre : Rearranged cards cards.reverse := by
    refine ⟨cards.reverse, (List.reverse_perm cards).symm, ?_⟩
    rw [List.forall₂_same]
    intro r hr
    exact ⟨isElement_of_mem_cards r (List.mem_reverse.1 hr), rfl, rfl, fun _ => Iff.rfl⟩
  obtain ⟨ps, hps, hgrouped, hsame⟩ := patterns_grouped {} cards (by decide) isElement_of_mem_cards
  exact ⟨by decide, isElement_of_mem_cards, ps, hps, hgrouped, hsame _ hre⟩

end Sample

end BrowserFlow
