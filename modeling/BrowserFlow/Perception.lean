import BrowserFlow.Digest.Sample
import BrowserFlow.World.Basic

/-!
# Looking at the page

A look at the page gives its digest. The last digest is remembered with the address that the page
had when the look began, and as long as the page has that address no other sample is taken unless it
is asked for. A look that fails leaves what is remembered as it was.
-/

namespace BrowserFlow.Perception

/-- The last digest, with the address of its page. -/
abbrev Memory := Option (String × Digest)

/-- The digest that is remembered for an address. -/
def known? (m : Memory) (url : String) : Option Digest :=
  match m with
  | some (known, digest) => if known = url then some digest else none
  | none => none

/-- What a sample is limited to. -/
def options (limits : Digest.Limits) : Value :=
  .record [("maxSample", .int limits.sample), ("maxTexts", .int limits.texts),
    ("maxTextLength", .int limits.textLength), ("maxAttrs", .int limits.attributes)]

/-- Takes a sample of the page and makes its digest. -/
def sample (limits : Digest.Limits) (url : String) : Effect Fault World Digest := do
  let raw ← World.call none (.sample (options limits))
  Effect.lift (Sample.digest limits url (.float (Clock.seconds (← get).clock)) raw)

/-- The digest of the page, and what is remembered from then on. -/
def look (limits : Digest.Limits) (m : Memory) (force : Bool) :
    Effect Fault World (Digest × Memory) := do
  let url := (← get).page.url
  match force, known? m url with
  | false, some digest => return (digest, m)
  | _, _ =>
    let digest ← sample limits url
    return (digest, some (url, digest))

end BrowserFlow.Perception
