import BrowserFlow.Proofs.World.Calls
import BrowserFlow.Session.Round

/-!
# What is remembered of a page

Looks at a page, times at which what is remembered is forgotten, and whatever else goes on in the
world follow each other in any order. From outside it can be seen of a look which address the page
had at first, which calls were made, and what came of it; the last sample that became a digest and
was not forgotten is told from that alone (`LastCollected`). The invariant is that this digest is
the one that is remembered (`Holds.after`). What a look does follows from it and from the two ways
that a look can go (`look_known`, `look_anew`).
-/

namespace BrowserFlow.Perception

open Effect

/-! ## Looks -/

/-- A world with what is remembered of its page. -/
structure Watch where
  world : World
  memory : Memory := none

namespace Watch

variable (limits : Digest.Limits) (force : Bool) (s : Watch)

/-- What comes of a look, and what there is then. What was remembered stays if the look fails. -/
def look : Except Fault Digest × Watch :=
  match (Perception.look limits s.memory force).run s.world with
  | (.ok (digest, memory), world) => (.ok digest, { world, memory })
  | (.error f, world) => (.error f, { s with world })

/-- The digest that is remembered for the address of the page. -/
def known? : Option Digest :=
  Perception.known? s.memory s.world.page.url

variable {limits force s}

/-- Either there is reason to take a sample, or there is a digest to be given back. -/
theorem anew_or_known (force : Bool) (s : Watch) :
    (force = true ∨ s.known? = none) ∨ force = false ∧ ∃ d, s.known? = some d := by
  cases force with
  | true => exact Or.inl (Or.inl rfl)
  | false =>
    cases hknown : s.known? with
    | none => exact Or.inl (Or.inr rfl)
    | some d => exact Or.inr ⟨rfl, d, rfl⟩

/-- A digest that is remembered is given back, and nothing else happens. -/
theorem look_known {d : Digest} (h : s.known? = some d) : s.look limits false = (.ok d, s) := by
  have hrun : (Perception.look limits s.memory false).run s.world =
      (.ok (d, s.memory), s.world) := by
    unfold Perception.look
    rw [run_bind_ok (run_get s.world)]
    dsimp only
    rw [show Perception.known? s.memory s.world.page.url = some d from h]
    rfl
  unfold look
  rw [hrun]

/-- Else a sample is taken, which is remembered with the address that the page had before if it
becomes a digest. -/
theorem look_anew (h : force = true ∨ s.known? = none) :
    s.look limits force =
      match (sample limits s.world.page.url).run s.world with
      | (.ok digest, world) => (.ok digest, ⟨world, some (s.world.page.url, digest)⟩)
      | (.error f, world) => (.error f, { s with world }) := by
  have hlook : (Perception.look limits s.memory force).run s.world =
      (sample limits s.world.page.url >>= fun digest =>
        pure (digest, some (s.world.page.url, digest))).run s.world := by
    unfold Perception.look
    rw [run_bind_ok (run_get s.world)]
    dsimp only
    rcases h with rfl | hnone
    · rfl
    · rw [show Perception.known? s.memory s.world.page.url = none from hnone]
      cases force <;> rfl
  unfold look
  rw [hlook, run_bind]
  rcases (sample limits s.world.page.url).run s.world with ⟨r, w⟩
  cases r <;> rfl

theorem calls_look_anew (h : force = true ∨ s.known? = none) :
    (s.look limits force).2.world.calls = s.world.calls ++ [.sample (options limits)] := by
  have hsample : ((sample limits s.world.page.url).run s.world).2.calls =
      s.world.calls ++ [.sample (options limits)] :=
    World.calls_call_bind (fun v => keeps_get_bind fun w => keeps_lift _) s.world
  rw [look_anew h, ← hsample]
  rcases (sample limits s.world.page.url).run s.world with ⟨r, w⟩
  cases r <;> rfl

/-- A sample that becomes a digest is remembered, and else nothing changes in what is. -/
theorem memory_look_anew (h : force = true ∨ s.known? = none) :
    (s.look limits force).2.memory =
      match (s.look limits force).1 with
      | .ok digest => some (s.world.page.url, digest)
      | .error _ => s.memory := by
  rw [look_anew h]
  rcases (sample limits s.world.page.url).run s.world with ⟨r, w⟩
  cases r <;> rfl

end Watch

/-- A session looks at its page like this, and remembers what comes of it. -/
theorem run_sessionLook (s : Session) :
    Session.look.run s =
      (.ok (Watch.look {} false ⟨s.world, s.memory⟩).1,
        { s with
          world := (Watch.look {} false ⟨s.world, s.memory⟩).2.world
          memory := (Watch.look {} false ⟨s.world, s.memory⟩).2.memory }) := by
  unfold Session.look Watch.look
  rw [run_bind_ok (run_get s)]
  unfold Session.inWorld
  rw [run_bind, run_zoom, run_attempt]
  dsimp only
  rcases (Perception.look {} s.memory false).run s.world with ⟨r, w⟩
  cases r <;> rfl

/-! ## Courses -/

/-- What goes on: a look, perhaps with a sample asked for, what is remembered being forgotten, or
anything else that leaves the world as it is then. -/
inductive Event where
  | look (force : Bool)
  | forget
  | elsewhere (world : World)

/-- What can be seen of it. -/
inductive Happening where
  /-- A look at the page at an address, with the calls that it made and what came of it. -/
  | looked (url : String) (calls : List PageCall) (outcome : Except Fault Digest)
  | forgot
  | elsewhere

/-- The digest that was made of a sample, with the address at which the look began. -/
def Happening.collected? : Happening → Option (String × Digest)
  | looked url calls (.ok digest) =>
    if calls.any PageCall.isSample then some (url, digest) else none
  | _ => none

namespace Watch

def after (limits : Digest.Limits) (s : Watch) : Event → Watch
  | .look force => (s.look limits force).2
  | .forget => { s with memory := none }
  | .elsewhere world => { s with world }

/-- What is seen of an event; the calls of a look are those behind the calls that there were. -/
def seen (limits : Digest.Limits) (s : Watch) : Event → Happening
  | .look force =>
    let next := s.look limits force
    .looked s.world.page.url (next.2.world.calls.drop s.world.calls.length) next.1
  | .forget => .forgot
  | .elsewhere _ => .elsewhere

variable {limits : Digest.Limits} {force : Bool} {s : Watch}

theorem seen_look_known {d : Digest} (h : s.known? = some d) :
    s.seen limits (.look false) = .looked s.world.page.url [] (.ok d) := by
  rw [seen, look_known h, List.drop_length]

theorem seen_look_anew (h : force = true ∨ s.known? = none) :
    s.seen limits (.look force) =
      .looked s.world.page.url [.sample (options limits)] (s.look limits force).1 := by
  rw [seen, calls_look_anew h, List.drop_left]

end Watch

/-- One event after the other. -/
def course (limits : Digest.Limits) (s : Watch) : List Event → List Happening × Watch
  | [] => ([], s)
  | e :: es =>
    let (later, last) := course limits (s.after limits e) es
    (s.seen limits e :: later, last)

/-- The last sample that became a digest gave this one, and nothing was forgotten since. -/
def LastCollected (hs : List Happening) (url : String) (d : Digest) : Prop :=
  ∃ before h behind, hs = before ++ h :: behind ∧ h.collected? = some (url, d) ∧
    ∀ g ∈ behind, g ≠ .forgot ∧ g.collected? = none

variable {limits : Digest.Limits} {hs : List Happening} {h : Happening} {s : Watch} {url : String}
  {d : Digest}

theorem not_lastCollected_nil : ¬ LastCollected [] url d := by
  rintro ⟨before, h, behind, hnil, -, -⟩
  exact absurd hnil.symm (by simp)

/-- Of one more happening it counts whether it collected a digest, and if not, whether it was that
everything was forgotten. -/
theorem lastCollected_concat :
    LastCollected (hs ++ [h]) url d ↔
      h.collected? = some (url, d) ∨
        h.collected? = none ∧ h ≠ .forgot ∧ LastCollected hs url d := by
  constructor
  · rintro ⟨before, g, behind, heq, hg, hbehind⟩
    rcases behind.eq_nil_or_concat with rfl | ⟨between, last, rfl⟩
    · obtain rfl : h = g := List.singleton_inj.1 (List.append_inj' heq rfl).2
      exact Or.inl hg
    · rw [List.concat_eq_append, ← List.cons_append, ← List.append_assoc] at heq
      obtain ⟨rfl, hlast⟩ := List.append_inj' heq rfl
      obtain rfl : h = last := List.singleton_inj.1 hlast
      obtain ⟨hne, hnone⟩ := hbehind h (by simp)
      have hbetween : ∀ g' ∈ between, g' ≠ .forgot ∧ g'.collected? = none := fun g' hg' =>
        hbehind g' (by simp [hg'])
      exact Or.inr ⟨hnone, hne, before, g, between, rfl, hg, hbetween⟩
  · rintro (hcollected | ⟨hnone, hne, before, g, behind, rfl, hg, hbehind⟩)
    · exact ⟨hs, h, [], rfl, hcollected, fun g hg => absurd hg List.not_mem_nil⟩
    · refine ⟨before, g, behind ++ [h], by simp, hg, fun g' hg' => ?_⟩
      rcases List.mem_append.1 hg' with hold | hlast
      · exact hbehind g' hold
      · rw [List.mem_singleton.1 hlast]
        exact ⟨hne, hnone⟩

/-! ## What is remembered -/

/-- What is remembered is what was collected last. -/
def Holds (hs : List Happening) (s : Watch) : Prop :=
  ∀ url d, s.memory = some (url, d) ↔ LastCollected hs url d

/-- What neither collects a digest nor forgets one leaves what is remembered as it was. -/
theorem Holds.of_memory_eq {t : Watch} (hold : Holds hs s) (hmemory : t.memory = s.memory)
    (hnone : h.collected? = none) (hne : h ≠ .forgot) : Holds (hs ++ [h]) t := by
  intro url d
  rw [hmemory, hold, lastCollected_concat]
  simp [hnone, hne]

theorem Holds.after (hold : Holds hs s) (e : Event) :
    Holds (hs ++ [s.seen limits e]) (s.after limits e) := by
  cases e with
  | forget =>
    intro url d
    rw [lastCollected_concat]
    simp [Watch.after, Watch.seen, Happening.collected?]
  | elsewhere world => exact hold.of_memory_eq rfl rfl Happening.noConfusion
  | look force =>
    rcases Watch.anew_or_known force s with hanew | ⟨rfl, d, hd⟩
    · have hmemory := @Watch.memory_look_anew limits force s hanew
      rw [Watch.seen_look_anew hanew]
      cases houtcome : (s.look limits force).1 with
      | ok digest =>
        intro url d
        rw [houtcome] at hmemory
        rw [lastCollected_concat, Watch.after, hmemory]
        simp [Happening.collected?, PageCall.isSample, eq_comm]
      | error f =>
        rw [houtcome] at hmemory
        exact hold.of_memory_eq hmemory rfl Happening.noConfusion
    · rw [Watch.seen_look_known hd, Watch.after, Watch.look_known hd]
      exact hold.of_memory_eq rfl rfl Happening.noConfusion

/-- What is remembered during a course, and what a look would do after it. -/
structure Remembers (limits : Digest.Limits) (hs : List Happening) (s : Watch) : Prop where
  /-- For every address the digest that was collected last, if it began at this address. -/
  last : ∀ url d, known? s.memory url = some d ↔ LastCollected hs url d
  sole : ∀ url d url' d', known? s.memory url = some d → known? s.memory url' = some d' →
    url = url' ∧ d = d'
  /-- The digest of the address of the page is given back, and nothing else happens. -/
  recalls : ∀ d, LastCollected hs s.world.page.url d → s.look limits false = (.ok d, s)
  /-- Without one, or if a sample is asked for, one is taken, and no other call is made. -/
  samples : ∀ force, (force = true ∨ ∀ d, ¬ LastCollected hs s.world.page.url d) →
    (s.look limits force).2.world.calls = s.world.calls ++ [.sample (options limits)]
  /-- A look that fails leaves what is remembered as it was. -/
  failed : ∀ force f, (s.look limits force).1 = .error f →
    (s.look limits force).2.memory = s.memory

theorem known?_eq_some_iff {m : Memory} : known? m url = some d ↔ m = some (url, d) := by
  unfold known?
  cases m with
  | none => simp
  | some entry =>
    obtain ⟨known, digest⟩ := entry
    by_cases hurl : known = url <;> simp [hurl]

theorem Holds.remembers (hold : Holds hs s) : Remembers limits hs s := by
  have hlast : ∀ url d, known? s.memory url = some d ↔ LastCollected hs url d := fun url d =>
    known?_eq_some_iff.trans (hold url d)
  constructor
  case last => exact hlast
  case sole =>
    intro url d url' d' hd hd'
    have heq := (known?_eq_some_iff.1 hd).symm.trans (known?_eq_some_iff.1 hd')
    simpa using heq
  case recalls => exact fun d hd => Watch.look_known ((hlast _ d).2 hd)
  case samples =>
    intro force hanew
    refine Watch.calls_look_anew (hanew.imp_right fun hnone => ?_)
    exact Option.eq_none_iff_forall_ne_some.2 fun d hd => hnone d ((hlast _ d).1 hd)
  case failed =>
    intro force f hf
    rcases Watch.anew_or_known force s with hanew | ⟨rfl, d, hd⟩
    · rw [Watch.memory_look_anew hanew, hf]
    · rw [Watch.look_known hd]

theorem Holds.course (hold : Holds hs s) (es : List Event) :
    Holds (hs ++ (course limits s es).1) (course limits s es).2 := by
  induction es generalizing hs s with
  | nil =>
    rw [Perception.course, List.append_nil]
    exact hold
  | cons e es ih =>
    rw [Perception.course, List.append_cons]
    exact ih (hold.after e)

/-- Whatever goes on, it is the last digest that was collected which is remembered. -/
theorem remembers_course (limits : Digest.Limits) (world : World) (es : List Event) :
    Remembers limits (course limits { world } es).1 (course limits { world } es).2 := by
  have hnone : Holds [] { world } := fun url d => by simp [not_lastCollected_nil]
  exact (hnone.course es).remembers

end BrowserFlow.Perception
