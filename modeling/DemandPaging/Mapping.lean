import DemandPaging.Host
import DemandPaging.Page.Image
import DemandPaging.Page.Map
import DemandPaging.Step

/-!
# The mapping of the managed range

What the host holds behind every page: its protection and its bytes. A page
without memory of its own is reserved, which means that it is inaccessible and
reads as zero. A page may also have lost its mapping; protection changes are
refused there until the page is bound or unbound again.
-/

namespace DemandPaging

/-- What the host holds behind a page. -/
structure Frame where
  /-- The protection that is in force. -/
  rights : Permission
  /-- The bytes of the page. -/
  image : PageImage

namespace Frame

/-- A page without memory of its own. -/
def reserved : Frame := ⟨.noAccess, .zero⟩

/-- A page that was just given memory. -/
def fresh : Frame := ⟨.readWrite, .zero⟩

end Frame

/-- The managed range as the host sees it. -/
structure Mapping where
  /-- The addresses of the pages. -/
  range : Range
  /-- What is behind each page; nothing, if its mapping was lost. -/
  frames : PageMap (Option Frame)

/-- What an access does. -/
inductive Access where
  /-- A load. -/
  | read
  /-- A store. -/
  | write
  deriving DecidableEq, Repr

/-- The rights `p` allow the access. -/
def Access.allowedBy (a : Access) (p : Permission) : Bool :=
  match a with
  | .read => p.allowsRead
  | .write => p.allowsWrite

namespace Mapping

/-- Reserve the managed range where the host places it. -/
def reserve {σ : Type} (host : Host) : Step σ Mapping := do
  Step.refuse (host.reserve.map fun cause => .map (.reserve memorySize cause))
  let base := host.placement
  Step.refuse (if base.isPageAligned then none else some (.map (.misaligned base)))
  if base.toNat ≠ preferredBase then
    Step.report (.baseMoved base)
  let range ← Step.ofChecked (Range.ofBase base)
  return ⟨range, .const (some .reserved)⟩

/-- What is behind page `p`. -/
def frame (m : Mapping) (p : Page) : Option Frame := m.frames.get p

/-- The bytes of page `p`; zero where the mapping was lost. -/
def image (m : Mapping) (p : Page) : PageImage :=
  match m.frame p with
  | some f => f.image
  | none => .zero

/-- The protection of page `p` that is in force, if it has a mapping. -/
def rights? (m : Mapping) (p : Page) : Option Permission := (m.frame p).map (·.rights)

/-- Give page `p` fresh memory that can be read and written. -/
def bind (m : Mapping) (p : Page) : Mapping := { m with frames := m.frames.set p (some .fresh) }

/-- Take the memory of page `p` back and reserve the page again. -/
def unbind (m : Mapping) (p : Page) : Mapping :=
  { m with frames := m.frames.set p (some .reserved) }

/-- Drop the mapping of page `p`. -/
def lose (m : Mapping) (p : Page) : Mapping := { m with frames := m.frames.set p none }

/-- Put the rights of page `p` into force. -/
def protect (m : Mapping) (p : Page) (perm : Permission) : Mapping :=
  { m with frames := m.frames.modify p (·.map fun f => { f with rights := perm }) }

/-- Replace the bytes of page `p`. -/
def fill (m : Mapping) (p : Page) (image : PageImage) : Mapping :=
  { m with frames := m.frames.modify p (·.map fun f => { f with image }) }

/-- Replace one byte of page `p`. -/
def store (m : Mapping) (p : Page) (i : Offset) (b : UInt8) : Mapping :=
  { m with frames := m.frames.modify p (·.map fun ⟨rights, image⟩ => ⟨rights, image.set i b⟩) }

/-- Replace the word at offset `i` of page `p`. -/
def storeWord (m : Mapping) (p : Page) (i : Offset) (w : UInt32) : Mapping :=
  { m with frames := m.frames.modify p (·.map fun ⟨rights, image⟩ => ⟨rights, image.setWord i w⟩) }

/-- Why page `p` cannot be given memory. -/
def bindFailure (host : Host) (p : Page) : Option MapError :=
  (host.bind p).map fun cause => .bind p cause

/-- Why the memory of page `p` cannot be taken back. -/
def unbindFailure (host : Host) (p : Page) : Option MapError :=
  (host.unbind p).map fun cause => .unbind p cause

/-- The refusal of the host to change the rights of page `p`. -/
def protectRefusal (host : Host) (m : Mapping) (p : Page) (perm : Permission) : Option HostError :=
  match m.frame p with
  | none => some .outOfMemory
  | some _ => host.protect p perm

/-- Why the rights of page `p` cannot be changed. -/
def protectFailure (host : Host) (m : Mapping) (p : Page) (perm : Permission) : Option MapError :=
  (protectRefusal host m p perm).map fun cause => .protect p perm cause

/-- What the host says to an access that it does not permit. -/
def denial (m : Mapping) (p : Page) (a : Access) : Option FaultCode :=
  match m.frame p with
  | none => some .notMapped
  | some f => if a.allowedBy f.rights then none else some .accessDenied

theorem frame_bind (m : Mapping) (p q : Page) :
    (m.bind p).frame q = if p = q then some .fresh else m.frame q :=
  PageMap.get_set ..

theorem frame_unbind (m : Mapping) (p q : Page) :
    (m.unbind p).frame q = if p = q then some .reserved else m.frame q :=
  PageMap.get_set ..

theorem frame_protect (m : Mapping) (p q : Page) (perm : Permission) :
    (m.protect p perm).frame q =
      if p = q then (m.frame q).map ({ · with rights := perm }) else m.frame q :=
  PageMap.get_modify ..

theorem frame_fill (m : Mapping) (p q : Page) (image : PageImage) :
    (m.fill p image).frame q =
      if p = q then (m.frame q).map ({ · with image }) else m.frame q :=
  PageMap.get_modify ..

theorem frame_store (m : Mapping) (p q : Page) (i : Offset) (b : UInt8) :
    (m.store p i b).frame q =
      if p = q then (m.frame q).map (fun f => ⟨f.rights, f.image.set i b⟩) else m.frame q :=
  PageMap.get_modify ..

end Mapping

end DemandPaging
