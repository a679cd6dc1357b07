import DemandPaging.Memory.Access
import DemandPaging.Proofs.Memory.Tick

/-!
# Requests and the faults they raise

A request loads or stores one byte. The host denies it until the rights of its
page suffice, and each fault raises the rights by one step: from none to
reading, from reading to writing. `Access.shortfall` counts the steps that are
missing, so an access raises exactly as many faults as the bound admits. Every
chain of faults is an instance of `Faults`, whose induction carries facts about
one fault over to the whole access.
-/

namespace DemandPaging

open Step

/-- The rights of a page after one more fault. -/
def Permission.raised : Permission → Permission
  | .noAccess => .read
  | .read | .readWrite => .readWrite

namespace Access

/-- The faults that are missing until the access is permitted. -/
def shortfall : Access → Permission → Nat
  | .read, .noAccess => 1
  | .read, .read | .read, .readWrite => 0
  | .write, .noAccess => 2
  | .write, .read => 1
  | .write, .readWrite => 0

variable {a : Access} {perm : Permission}

/-- A fault of a denied access makes up for one missing step. -/
theorem shortfall_raised (h : a.allowedBy perm = false) :
    a.shortfall perm = a.shortfall perm.raised + 1 := by
  cases a <;> cases perm <;> first | rfl | cases h

theorem shortfall_le_faultBound (a : Access) (perm : Permission) :
    a.shortfall perm ≤ a.faultBound := by
  cases a <;> cases perm <;> decide

/-- No access is permitted without rights. -/
theorem not_allowedBy_noAccess (a : Access) : a.allowedBy .noAccess = false := by
  cases a <;> rfl

/-- What is denied stays denied when rights are withdrawn. -/
theorem not_allowedBy_of_withdrawn {perm' : Permission} (h : a.allowedBy perm = false)
    (hwithdrawn : perm' = perm ∨ perm' = .noAccess) : a.allowedBy perm' = false := by
  rcases hwithdrawn with rfl | rfl
  · exact h
  · exact a.not_allowedBy_noAccess

/-- A page that permits an access can be read. -/
theorem allowsRead_of_allowedBy (h : a.allowedBy perm = true) : perm.allowsRead = true := by
  cases a <;> cases perm <;> first | rfl | cases h

/-- Only full rights permit a store. -/
theorem eq_readWrite_of_allowedBy (h : Access.write.allowedBy perm = true) : perm = .readWrite := by
  cases perm <;> first | rfl | cases h

/-- A page that can be read denies stores only. -/
theorem eq_write_of_not_allowedBy (h : a.allowedBy .read = false) : a = .write := by
  cases a <;> first | rfl | cases h

end Access

/-- A load or a store of one byte. -/
inductive Request where
  /-- The byte at an offset of a page is loaded. -/
  | load (p : Page) (i : Offset)
  /-- The byte at an offset of a page is replaced. -/
  | store (p : Page) (i : Offset) (b : UInt8)
  deriving DecidableEq, Repr

/-- A request that was carried out. -/
inductive Completion where
  /-- The byte `b` was loaded. -/
  | loaded (p : Page) (i : Offset) (b : UInt8)
  /-- The byte `b` was stored. -/
  | stored (p : Page) (i : Offset) (b : UInt8)
  deriving DecidableEq, Repr

/-- What was asked for. -/
def Completion.request : Completion → Request
  | loaded p i _ => .load p i
  | stored p i b => .store p i b

/-- A store that was asked for is the store that was carried out. -/
theorem Completion.eq_stored {c : Completion} {p : Page} {i : Offset} {b : UInt8}
    (h : c.request = .store p i b) : c = .stored p i b := by
  cases c with
  | loaded q j d => cases h
  | stored q j d =>
    cases h
    rfl

/-- A load that was asked for was carried out with some byte. -/
theorem Completion.exists_eq_loaded {c : Completion} {p : Page} {i : Offset}
    (h : c.request = .load p i) : ∃ b, c = .loaded p i b := by
  cases c with
  | loaded q j d =>
    cases h
    exact ⟨d, rfl⟩
  | stored q j d => cases h

namespace Request

/-- The page of the byte. -/
def page : Request → Page
  | load p _ | store p _ _ => p

/-- What the request does to its page. -/
def access : Request → Access
  | load _ _ => .read
  | store _ _ _ => .write

/-- Load or store the byte. -/
def carryOut : Request → Step Memory Completion
  | load p i => do return .loaded p i ((← Memory.image p).get i)
  | store p i b => do
    Memory.store p i b
    return .stored p i b

/-- Bring the access about as the host does it and carry the request out. -/
def perform (host : Host) (r : Request) : Step Memory Completion := do
  Memory.reach host r.page r.access
  r.carryOut

end Request

namespace Memory

variable {host : Host} {s t : Memory} {p : Page} {a : Access} {kind : FaultKind} {es : Array Event}

/-! ## Denial -/

/-- The host permits what the recorded rights allow. -/
theorem Sound.hostDenial_eq_none (h : s.Sound) (ha : a.allowedBy (s.entry p).permission = true) :
    hostDenial p a s = none := by
  simp only [hostDenial, Mapping.denial, h.frame_eq p, ha, ite_true]

/-- The host denies any other access; it never misses a mapping. -/
theorem Sound.hostDenial_eq_some (h : s.Sound) (ha : a.allowedBy (s.entry p).permission = false) :
    hostDenial p a s = some .accessDenied := by
  simp only [hostDenial, Mapping.denial, h.frame_eq p, ha, Bool.false_eq_true, ite_false]

/-- The fault of a denied access can be classified. -/
theorem exists_classify (ha : a.allowedBy (s.entry p).permission = false) :
    ∃ kind, FaultKind.classify p (s.entry p) .accessDenied = .ok kind := by
  unfold FaultKind.classify
  cases (s.entry p).resident with
  | false => exact ⟨.pageIn, rfl⟩
  | true =>
    cases hp : (s.entry p).permission with
    | noAccess => exact ⟨.grantRead, rfl⟩
    | read => exact ⟨.grantWrite, rfl⟩
    | readWrite =>
      rw [hp] at ha
      cases a <;> cases ha

/-- A fault raises the rights of its page. -/
theorem Sound.permission_resolved (h : s.Sound) {code : FaultCode}
    (hk : FaultKind.classify p (s.entry p) code = .ok kind) :
    ((s.resolved p kind).entry p).permission = (s.entry p).permission.raised := by
  obtain ⟨rfl, hr⟩ | ⟨rfl, -, hp⟩ | ⟨rfl, -, hp⟩ := resident_of_classify hk
  · have hempty : s.entry p = .empty := (h.cell p).entry_eq_empty hr
    rw [hempty, ← entry_cell, cell_pageIn, Function.update_self]
    exact Permission.ofBits_bits .read
  · rw [hp, ← entry_cell, cell_grantRead, Function.update_self]
    exact Permission.ofBits_bits .read
  · rw [hp, ← entry_cell, cell_grantWrite, Function.update_self]
    exact Permission.ofBits_bits .readWrite

/-- A page that was loaded can be read. -/
theorem Sound.permission_pageIn (h : s.Sound) (hr : (s.entry p).resident = false) :
    ((s.resolved p .pageIn).entry p).permission = .read := by
  rw [h.permission_resolved (classify_of_absent hr .accessDenied), h.entry_eq_empty hr]
  rfl

/-- A fault on a readable page is taken for a store. -/
theorem Sound.classify_of_read (h : s.Sound) (hp : (s.entry p).permission = .read) :
    FaultKind.classify p (s.entry p) .accessDenied = .ok .grantWrite := by
  obtain ⟨hr, -⟩ := (h.cell p).of_allowsRead (by rw [entry_cell, hp]; rfl)
  rw [classify_of_resident hr, hp]

/-- A fault on a writable page is refused. -/
theorem Sound.classify_of_readWrite (h : s.Sound) (hp : (s.entry p).permission = .readWrite) :
    FaultKind.classify p (s.entry p) .accessDenied = .error (.invariant p .alreadyReadWrite) := by
  obtain ⟨hr, -⟩ := (h.cell p).of_allowsRead (by rw [entry_cell, hp]; rfl)
  rw [classify_of_resident hr, hp]

/-! ## Chains of faults -/

/-- Faults on page `p` in a row, what they report and the state that they leave. -/
inductive Faults (p : Page) : Memory → Array Event → Memory → Prop
  /-- No fault is raised. -/
  | none (s : Memory) : Faults p s #[] s
  /-- One fault is resolved, and the others after it. -/
  | fault {s t : Memory} {kind : FaultKind} {es : Array Event}
      (hk : FaultKind.classify p (s.entry p) .accessDenied = .ok kind)
      (rest : Faults p (s.resolved p kind) es t) : Faults p s (s.faultEvents p kind ++ es) t

/-- Faults leave sound memory. -/
theorem Faults.sound (hf : Faults p s es t) (h : s.Sound) : t.Sound := by
  induction hf with
  | none s => exact h
  | fault hk rest ih => exact ih (h.resolved hk)

/-- Faults change the bytes of no page. -/
theorem Faults.contents (hf : Faults p s es t) (h : s.Sound) (q : Page) :
    t.contents q = s.contents q := by
  induction hf with
  | none s => rfl
  | fault hk rest ih => exact (ih (h.resolved hk)).trans (h.contents_resolved hk q)

/-- Where the rights allow the access, no fault is raised. -/
theorem Sound.yields_resolve (host : Host) (h : s.Sound)
    (ha : a.allowedBy (s.entry p).permission = true) (bound : Nat) :
    (resolve host p (hostDenial p a) bound).Yields s ⟨[], none⟩ s #[] := by
  cases bound with
  | zero | succ bound =>
    refine (yields_query _ s).bind_silent ?_
    rw [h.hostDenial_eq_none ha]
    exact Yields.pure _ s

/-- Raising faults while the host denies the access ends with the access permitted. -/
theorem exists_resolve (hh : host.Obliging) (h : s.Sound) {bound : Nat}
    (hb : a.shortfall (s.entry p).permission ≤ bound) :
    ∃ faults t es, (resolve host p (hostDenial p a) bound).Yields s ⟨faults, none⟩ t es ∧
      Faults p s es t ∧ a.allowedBy (t.entry p).permission = true := by
  induction bound generalizing s with
  | zero =>
    cases ha : a.allowedBy (s.entry p).permission with
    | true => exact ⟨[], s, #[], h.yields_resolve host ha 0, .none s, ha⟩
    | false =>
      have hmissing := Access.shortfall_raised ha
      omega
  | succ bound ih =>
    -- each fault takes one off the shortfall, so the bound never runs out before it
    cases ha : a.allowedBy (s.entry p).permission with
    | true => exact ⟨[], s, #[], h.yields_resolve host ha (bound + 1), .none s, ha⟩
    | false =>
      obtain ⟨kind, hk⟩ := exists_classify ha
      have hmissing : a.shortfall ((s.resolved p kind).entry p).permission ≤ bound := by
        rw [h.permission_resolved hk]
        have := Access.shortfall_raised ha
        omega
      obtain ⟨faults, t, es, hrest, hfaults, hpermitted⟩ := ih (h.resolved hk) hmissing
      refine ⟨kind :: faults, t, s.faultEvents p kind ++ es, (yields_query _ s).bind_silent ?_,
        .fault hk hfaults, hpermitted⟩
      rw [h.hostDenial_eq_some ha]
      refine (yields_handleFault hh h hk).attempt.bind ?_
      exact hrest.bind_last (Yields.pure _ t)

/-- Every access is brought about by a chain of faults. -/
theorem exists_reach (hh : host.Obliging) (h : s.Sound) (p : Page) (a : Access) :
    ∃ t es, (reach host p a).Yields s () t es ∧ Faults p s es t ∧
      a.allowedBy (t.entry p).permission = true := by
  obtain ⟨faults, t, es, hresolve, hfaults, hpermitted⟩ :=
    exists_resolve hh h (Access.shortfall_le_faultBound a (s.entry p).permission)
  exact ⟨t, es, hresolve.bind_last (Yields.pure () t), hfaults, hpermitted⟩

/-! ## Carrying requests out -/

/-- The completion of a request that is carried out. -/
def answer (s : Memory) : Request → Completion
  | .load p i => .loaded p i ((s.contents p).get i)
  | .store p i b => .stored p i b

/-- The state after a request was carried out. -/
def served (s : Memory) : Request → Memory
  | .load _ _ => s
  | .store p i b => s.stored p i b

@[simp] theorem request_answer (s : Memory) (r : Request) : (s.answer r).request = r := by
  cases r <;> rfl

/-- A permitted request is carried out. A load finds what its page stands for. -/
theorem Sound.yields_carryOut (h : s.Sound) {r : Request}
    (ha : r.access.allowedBy (s.entry r.page).permission = true) :
    r.carryOut.Yields s (s.answer r) (s.served r) #[] := by
  cases r with
  | load p i =>
    obtain ⟨hr, -⟩ := (h.cell p).of_allowsRead ha
    have himage : s.contents p = s.mapping.image p := if_pos hr
    rw [answer, himage]
    exact (yields_query _ s).bind_silent (Yields.pure _ s)
  | store p i b => exact (yields_update _ s).bind_silent (Yields.pure _ _)

/-- A permitted request leaves sound memory. -/
theorem Sound.served (h : s.Sound) {r : Request}
    (ha : r.access.allowedBy (s.entry r.page).permission = true) : (s.served r).Sound := by
  cases r with
  | load p i => exact h
  | store p i b => exact h.stored (Access.eq_readWrite_of_allowedBy ha) i b

/-- Every request is performed: a chain of faults, after which it is permitted, and then the
request itself. -/
theorem exists_perform (hh : host.Obliging) (h : s.Sound) (r : Request) :
    ∃ t es, (r.perform host).Yields s (t.answer r) (t.served r) es ∧ Faults r.page s es t ∧
      r.access.allowedBy (t.entry r.page).permission = true := by
  obtain ⟨t, es, hreach, hfaults, hpermitted⟩ := exists_reach hh h r.page r.access
  have hcarry := (hfaults.sound h).yields_carryOut hpermitted
  exact ⟨t, es, hreach.bind_last hcarry, hfaults, hpermitted⟩

end Memory

end DemandPaging
