import DemandPaging.Proofs.Matrix.Layout

/-!
# Matrices in any memory

A program has matrices in ordinary memory beside those in the regions of its
process. `Storage` names the matrices of either kind, so that one statement covers
every way of mixing them; what the definitions on matrices write is told by the
same definitions on matrices in ordinary memory alone.
-/

namespace DemandPaging

open UserProcess

/-- A program that changes one matrix in ordinary memory, above a process. -/
abbrev Program (α : Type) := StateT HeapMatrix (Step UserProcess) α

/-- A matrix of a program. -/
inductive Storage where
  /-- A matrix in ordinary memory that is only read. -/
  | fixed (a : HeapMatrix)
  /-- The matrix in ordinary memory that is changed, with its shape. -/
  | heap (rows columns : Nat)
  /-- A matrix in the region with a number. -/
  | paged (n : Nat) (a : PagedMatrix)

namespace Storage

variable {host : Host} {u : UserProcess} {state : HeapMatrix} {s out : Storage} {v : View}
  {w w₀ : HeapMatrix × View} {l : Ledger} {a b d : HeapMatrix}

/-- The matrix as the program sees it. -/
def matrix (host : Host) : Storage → Matrix Program
  | fixed a => a.view
  | heap rows columns => HeapMatrix.currentOver (Step UserProcess) rows columns
  | paged _ a =>
    { rows := a.rows
      columns := a.columns
      get := fun r c => StateT.lift ((a.shared host).get r c)
      set := fun r c x => StateT.lift ((a.shared host).set r c x) }

/-- The program can write to the matrix. -/
def Writable : Storage → Prop
  | fixed _ => False
  | heap _ _ | paged _ _ => True

/-- The program has the matrix: it is the one in ordinary memory, or it was made in one of the
regions. -/
def Belongs (u : UserProcess) (state : HeapMatrix) : Storage → Prop
  | fixed _ => True
  | heap rows columns => state.rows = rows ∧ state.columns = columns
  | paged n a =>
    region? n u = some a.region ∧ PagedMatrix.ofRegion a.rows a.columns a.region = .ok a

/-- The matrices are not kept in the same place. -/
def Apart : Storage → Storage → Prop
  | heap _ _, heap _ _ => False
  | paged m _, paged n _ => m ≠ n
  | _, _ => True

/-- The matrix has the shape of `a`, and the elements of `a` are read from it. -/
structure Twin (host : Host) (u : UserProcess) (state : HeapMatrix) (s : Storage) (a : HeapMatrix) :
    Prop where
  /-- The shapes are the same. -/
  shape : (s.matrix host).shape = (a.rows, a.columns)
  /-- The elements are the same. -/
  get : ∀ r < a.rows, ∀ c < a.columns, ∃ u' es,
    (((s.matrix host).get r c).run state).Yields u (a.get r c, state) u' es

theorem Twin.rows_eq (h : Twin host u state s a) : (s.matrix host).rows = a.rows :=
  congrArg Prod.fst h.shape

theorem Twin.columns_eq (h : Twin host u state s a) : (s.matrix host).columns = a.columns :=
  congrArg Prod.snd h.shape

/-- A matrix in ordinary memory is read as itself. -/
theorem twin_fixed (host : Host) (u : UserProcess) (state a : HeapMatrix) :
    Twin host u state (fixed a) a :=
  ⟨rfl, fun r _ c _ => ⟨u, #[], Step.Yields.pure (a.get r c, state) u⟩⟩

/-! ## Matrices in the view of a process -/

/-- What programs do. -/
abbrev account : Account Program (HeapMatrix × View) := (Account.step Shows).withState HeapMatrix

/-- The elements of the matrix. -/
def element : Storage → HeapMatrix × View → Nat → Nat → Int32
  | fixed a => fun _ => a.get
  | heap _ _ => fun w => w.1.get
  | paged _ a => fun w => a.element w.2

/-- The matrix is where it belongs. -/
def Laid (w : HeapMatrix × View) : Storage → Prop
  | fixed _ => True
  | heap rows columns => w.1.rows = rows ∧ w.1.columns = columns
  | paged _ a => a.Fits w.2.range

/-- Nothing but the elements of the matrix differs from `w₀`. -/
def Frame (w₀ : HeapMatrix × View) : Storage → HeapMatrix × View → Prop
  | fixed _ => fun w => w = w₀
  | heap rows columns => fun w => w.2 = w₀.2 ∧ w.1.rows = rows ∧ w.1.columns = columns
  | paged _ a => fun w => w.1 = w₀.1 ∧ w₀.2.Within a.region w.2

/-- The matrices have no byte in common. -/
def Clear : Storage → Storage → Prop
  | heap _ _, heap _ _ => False
  | paged _ a, paged _ b => a.region.Apart b.region
  | _, _ => True

theorem Laid.frame_self (h : out.Laid w) : out.Frame w w := by
  cases out with
  | fixed a => exact rfl
  | heap rows columns => exact ⟨rfl, h⟩
  | paged n a => exact ⟨rfl, .refl _ _⟩

/-- A matrix stays where it is while its elements change. -/
theorem Laid.of_frame (h : out.Laid w₀) (hw : out.Frame w₀ w) : out.Laid w := by
  cases out with
  | fixed a => trivial
  | heap rows columns => exact hw.2
  | paged n a =>
    change a.Fits w.2.range
    rw [hw.2.range]
    exact h

/-- A matrix offers its elements while another one changes. -/
theorem Laid.offers (hh : host.Obliging) (h : s.Laid w₀) (hout : out.Laid w₀) (hclear : s.Clear out) :
    (s.matrix host).Offers account (out.Frame w₀) (s.element w₀) := by
  rintro ⟨state, v⟩ r c hw hr hc
  -- where the elements are read decides what the frame of the other matrix has to leave alone
  cases s with
  | fixed a => exact a.offers_view (out.Frame w₀) _ r c hw hr hc
  | heap rows columns =>
    have hstate : state = w₀.1 := by
      cases out with
      | fixed a => exact congrArg Prod.fst (id hw)
      | heap rows columns => exact hclear.elim
      | paged n a => exact hw.1
    subst hstate
    exact account.does_bind (Account.does_get _) (account.does_pure _ _)
  | paged n a =>
    have hfits : a.Fits v.range ∧ a.element v r c = a.element w₀.2 r c := by
      cases out with
      | fixed b =>
        cases hw
        exact ⟨h, rfl⟩
      | heap rows columns =>
        obtain ⟨rfl, -⟩ := hw
        exact ⟨h, rfl⟩
      | paged k b =>
        exact ⟨hw.2.range.symm ▸ h, h.element_of_within hout hclear hw.2 hr hc⟩
    have hget := hfits.1.does_get (serves_step hh) hr hc
    rw [hfits.2] at hget
    exact Account.does_lift hget state

/-- The elements of a matrix are replaced while everything else stays. -/
theorem Laid.stores (hh : host.Obliging) (h : out.Laid w₀) (hwritable : out.Writable) :
    (out.matrix host).Stores account (out.Frame w₀) out.element := by
  cases out with
  | fixed a => exact hwritable.elim
  | heap rows columns => exact HeapMatrix.stores_currentOver (.step Shows) rows columns w₀.2
  | paged n a =>
    rintro ⟨state, v⟩ r c x ⟨rfl, hv⟩ hr hc
    obtain ⟨v', hset, hv', hreplaces⟩ := PagedMatrix.Fits.stores_shared (serves_step hh) h v r c x hv hr hc
    exact ⟨(_, v'), Account.does_lift hset _, ⟨rfl, hv'⟩, hreplaces⟩

/-! ## Matrices of a process -/

/-- A matrix that was made in a region has room there. -/
theorem length_of_ofRegion {rows columns : Nat} {r : Region} {a : PagedMatrix}
    (h : PagedMatrix.ofRegion rows columns r = .ok a) : rows * columns * Region.wordSize ≤ r.length := by
  unfold PagedMatrix.ofRegion at h
  split at h
  · cases h
  · split at h
    · cases h
    · omega

theorem Belongs.laid (h : s.Belongs u state) {memory : Memory} {place : Nat → Nat}
    (hu : u.Holds memory v) (hl : Agrees l v place) : s.Laid (state, v) := by
  cases s with
  | fixed a => trivial
  | heap rows columns => exact h
  | paged n a =>
    have hlies := (hl.lies (hu.region?_eq.symm.trans h.1)).2
    exact ⟨hlies.position_eq.symm ▸ hlies, length_of_ofRegion h.2⟩

theorem Belongs.clear (h : s.Belongs u state) (hout : out.Belongs u state) (hapart : s.Apart out)
    (hu : KeepsApart host u l) : s.Clear out := by
  cases s with
  | fixed a => cases out <;> trivial
  | heap rows columns => cases out <;> trivial
  | paged m a =>
    cases out with
    | fixed b => trivial
    | heap rows columns => trivial
    | paged n b =>
      obtain hlt | hgt := Nat.lt_or_gt_of_ne hapart
      · exact Or.inl (hu.disjoint hlt h.1 hout.1)
      · exact Or.inr (hu.disjoint hgt hout.1 h.1)

/-- An element that the view has is read. -/
theorem Laid.exists_get (hh : host.Obliging) (h : s.Laid w) (hu : u.Shows w.2) {r c : Nat}
    (hr : r < (s.matrix host).rows) (hc : c < (s.matrix host).columns) :
    ∃ u' es, (((s.matrix host).get r c).run w.1).Yields u (s.element w r c, w.1) u' es := by
  have hclear : s.Clear (.fixed ⟨0, 0, #[]⟩) := by
    cases s <;> trivial
  have hnone : Laid w (.fixed ⟨0, 0, #[]⟩) := trivial
  obtain ⟨u', es, hyields, -⟩ := h.offers hh hnone hclear w r c rfl hr hc u hu
  exact ⟨u', es, hyields⟩

/-- What is read from a matrix with a twin are the elements of the view. -/
theorem Twin.element_eq (ht : Twin host u w.1 s a) (hh : host.Obliging) (h : s.Laid w)
    (hu : u.Shows w.2) : ∀ r < a.rows, ∀ c < a.columns, s.element w r c = a.get r c := by
  intro r hr c hc
  obtain ⟨u₁, es₁, hread⟩ :=
    h.exists_get hh hu (hr.trans_eq ht.rows_eq.symm) (hc.trans_eq ht.columns_eq.symm)
  obtain ⟨u₂, es₂, hread'⟩ := ht.get r hr c hc
  exact congrArg Prod.fst (hread.unique hread').1

/-- A matrix with a twin offers the elements of the twin while another matrix changes. -/
theorem Twin.offers (ht : Twin host u w₀.1 s a) (hh : host.Obliging) (h : s.Laid w₀)
    (hu : u.Shows w₀.2) (hout : out.Laid w₀) (hclear : s.Clear out) :
    (s.matrix host).Offers account (out.Frame w₀) a.get := by
  intro w r c hw hr hc
  rw [← ht.element_eq hh h hu r (hr.trans_eq ht.rows_eq) c (hc.trans_eq ht.columns_eq)]
  exact h.offers hh hout hclear w r c hw hr hc

/-- A matrix of the view has every matrix with its shape and its elements as a twin. -/
theorem Laid.twin (hh : host.Obliging) (h : s.Laid w) (hu : u.Shows w.2) {rows columns : Nat}
    {f : Nat → Nat → Int32} (hd : d.Is rows columns f)
    (hshape : (s.matrix host).shape = (rows, columns))
    (helements : ∀ r < rows, ∀ c < columns, s.element w r c = f r c) : Twin host u w.1 s d := by
  obtain ⟨rfl, rfl, hget⟩ := hd
  refine ⟨hshape, fun r hr c hc => ?_⟩
  rw [hget r hr c hc, ← helements r hr c hc]
  exact h.exists_get hh hu (hr.trans_eq (congrArg Prod.fst hshape).symm)
    (hc.trans_eq (congrArg Prod.snd hshape).symm)

/-- What the definitions on matrices do in a program, whichever memory keeps the matrices: the same
that they do in ordinary memory. -/
structure Faithful (host : Host) (u : UserProcess) (state : HeapMatrix) : Prop where
  /-- The drawn elements and the rest of the stream are the same as in ordinary memory. -/
  generate : ∀ (out : Storage) (d : HeapMatrix) (stream : Random.Stream),
    out.Belongs u state → out.Writable → (out.matrix host).shape = (d.rows, d.columns) →
    ∃ u' state' es, (((out.matrix host).generate stream).run state).Yields u
      ((d.generate stream).1, state') u' es ∧ Twin host u' state' out (d.generate stream).2
  /-- A copy is a twin of the copy in ordinary memory. -/
  copy : ∀ (s out : Storage) (a d : HeapMatrix), s.Belongs u state → out.Belongs u state →
    out.Writable → s.Apart out → Twin host u state s a →
    (out.matrix host).shape = (a.rows, a.columns) → (d.rows, d.columns) = (a.rows, a.columns) →
    ∃ d', a.copyTo d = .ok d' ∧ ∃ u' state' es,
      (((s.matrix host).copy (out.matrix host)).run state).Yields u ((), state') u' es ∧
      Twin host u' state' out d'
  /-- A product is a twin of the product in ordinary memory: each of its elements is the sum of the
  products of a row and a column, as a word. What is done after each row may report. -/
  multiply : ∀ (s t out : Storage) (a b d : HeapMatrix) (onRow : Nat → Program Unit),
    s.Belongs u state → t.Belongs u state → out.Belongs u state →
    out.Writable → s.Apart out → t.Apart out → Twin host u state s a → Twin host u state t b →
    a.columns = b.rows → (out.matrix host).shape = (a.rows, b.columns) →
    (d.rows, d.columns) = (a.rows, b.columns) →
    (∀ r u state, ∃ es, ((onRow r).run state).Yields u ((), state) u es) →
    ∃ d', a.multiply b d = .ok d' ∧
      (∃ u' state' es,
        ((Matrix.multiply (s.matrix host) (t.matrix host) (out.matrix host) onRow).run state).Yields
          u ((), state') u' es ∧ Twin host u' state' out d') ∧
      ∀ r < a.rows, ∀ c < b.columns, d'.get r c =
        Int32.ofInt (∑ k ∈ Finset.range a.columns, (a.get r k).toInt * (b.get k c).toInt)

/-- Matrices in the regions of a session are as good as matrices in ordinary memory. -/
theorem faithful_of_seen (hh : host.Obliging) (h : u.Seen l) (state : HeapMatrix) :
    Faithful host u state where
  generate out d stream hbelongs hwritable hshape := by
    obtain ⟨v, place, ⟨memory, hu⟩, hl⟩ := h
    have hlaid := hbelongs.laid hu hl
    obtain ⟨w, hdoes, hframe, helements⟩ :=
      Matrix.exists_generate (hlaid.stores hh hwritable) stream hlaid.frame_self
    obtain ⟨d', hd', his⟩ := d.generate_spec stream
    obtain ⟨u', es, hyields, hu'⟩ := hdoes u ⟨memory, hu⟩
    have hrows : (out.matrix host).rows = d.rows := congrArg Prod.fst hshape
    have hcolumns : (out.matrix host).columns = d.columns := congrArg Prod.snd hshape
    rw [hrows, hcolumns] at hyields helements
    rw [hd']
    exact ⟨u', w.1, es, hyields, (hlaid.of_frame hframe).twin hh hu' his hshape helements⟩
  copy s out a d hs hout hwritable hapart ht hshape hd := by
    have hclear := hs.clear hout hapart (h.keepsApart hh)
    obtain ⟨v, place, ⟨memory, hu⟩, hl⟩ := h
    have hlaid := hout.laid hu hl
    obtain ⟨w, hdoes, hframe, helements⟩ :=
      Matrix.exists_copy (ht.offers hh (hs.laid hu hl) ⟨memory, hu⟩ hlaid hclear)
        (hlaid.stores hh hwritable) (hshape.trans ht.shape.symm) hlaid.frame_self
    obtain ⟨d', hd', his⟩ := HeapMatrix.copyTo_spec hd
    obtain ⟨u', es, hyields, hu'⟩ := hdoes u ⟨memory, hu⟩
    rw [ht.rows_eq, ht.columns_eq] at helements
    exact ⟨d', hd', u', w.1, es, hyields,
      (hlaid.of_frame hframe).twin hh hu' his hshape helements⟩
  multiply s t out a b d onRow hs ht hout hwritable hsapart htapart hstwin httwin hinner hshape
      hd hrow := by
    have hsclear := hs.clear hout hsapart (h.keepsApart hh)
    have htclear := ht.clear hout htapart (h.keepsApart hh)
    obtain ⟨v, place, ⟨memory, hu⟩, hl⟩ := h
    have hlaid := hout.laid hu hl
    have hinner' : (s.matrix host).columns = (t.matrix host).rows := by
      rw [hstwin.columns_eq, hinner, httwin.rows_eq]
    have hshape' : (out.matrix host).shape = ((s.matrix host).rows, (t.matrix host).columns) := by
      rw [hshape, hstwin.rows_eq, httwin.columns_eq]
    have hsilent (r : Nat) (w : HeapMatrix × View) (_ : out.Frame (state, v) w) :
        account.Does (onRow r) w () w := by
      intro u hu
      obtain ⟨es, hyields⟩ := hrow r u w.1
      exact ⟨u, es, hyields, hu⟩
    obtain ⟨w, hdoes, hframe, helements⟩ :=
      Matrix.exists_multiply (hstwin.offers hh (hs.laid hu hl) ⟨memory, hu⟩ hlaid hsclear)
        (httwin.offers hh (ht.laid hu hl) ⟨memory, hu⟩ hlaid htclear) (hlaid.stores hh hwritable)
        hinner' hshape' onRow hsilent hlaid.frame_self
    obtain ⟨d', hd', his⟩ := HeapMatrix.multiply_spec hinner hd
    obtain ⟨u', es, hyields, hu'⟩ := hdoes u ⟨memory, hu⟩
    rw [hstwin.rows_eq, httwin.columns_eq, hstwin.columns_eq] at helements
    exact ⟨d', hd', ⟨u', w.1, es, hyields,
      (hlaid.of_frame hframe).twin hh hu' his hshape helements⟩, his.get_eq⟩

end Storage

end DemandPaging
