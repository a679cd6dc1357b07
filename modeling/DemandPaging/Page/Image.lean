import DemandPaging.Page

/-!
# Page images

The contents of one page: exactly `pageSize` bytes, seen byte by byte through
`get`. An interrupted write of one image over another is a `splice`.
-/

namespace DemandPaging

/-- The bytes of one page. -/
structure PageImage where
  /-- The bytes in order of their offsets. -/
  bytes : ByteArray
  /-- A page is always whole. -/
  size_eq : bytes.size = pageSize

namespace PageImage

/-- The byte at offset `i`. -/
def get (m : PageImage) (i : Offset) : UInt8 :=
  getElem m.bytes i.val (by rw [m.size_eq]; exact i.isLt)

/-- Replace the byte at offset `i`. -/
def set (m : PageImage) (i : Offset) (b : UInt8) : PageImage where
  bytes := m.bytes.set i.val b (by rw [m.size_eq]; exact i.isLt)
  size_eq := by
    rw [← ByteArray.size_data, ByteArray.data_set, Array.size_set, ByteArray.size_data, m.size_eq]

/-- The image whose byte at each offset is given by `f`. -/
def ofFn (f : Offset → UInt8) : PageImage where
  bytes := ⟨Array.ofFn f⟩
  size_eq := Array.size_ofFn

/-- The image of a fresh page. -/
def zero : PageImage where
  bytes := ⟨Array.replicate pageSize 0⟩
  size_eq := Array.size_replicate

/-- The first `k` bytes of `new`, followed by the bytes of `old` from there on. -/
def splice (new old : PageImage) (k : Nat) : PageImage where
  bytes := new.bytes.extract 0 k ++ old.bytes.extract (min k pageSize) pageSize
  size_eq := by
    simp only [ByteArray.size_append, ByteArray.size_extract, new.size_eq, old.size_eq]
    omega

/-- The four bytes from offset `i` on as one word, the lowest byte first. An aligned word lies inside the page. -/
def word (m : PageImage) (i : Offset) : UInt32 :=
  (m.get i).toUInt32 ||| (m.get (i + 1)).toUInt32 <<< 8 ||| (m.get (i + 2)).toUInt32 <<< 16 |||
    (m.get (i + 3)).toUInt32 <<< 24

/-- Replace the four bytes from offset `i` on by those of `w`, the lowest byte first. -/
def setWord (m : PageImage) (i : Offset) (w : UInt32) : PageImage :=
  (((m.set i w.toUInt8).set (i + 1) (w >>> 8).toUInt8).set (i + 2) (w >>> 16).toUInt8).set (i + 3)
    (w >>> 24).toUInt8

@[simp] theorem get_zero (i : Offset) : zero.get i = 0 := by
  simp [zero, get, ByteArray.getElem_eq_getElem_data]

private theorem getElem_mk_ofFn {n : Nat} (f : Fin n → UInt8) (i : Fin n)
    (h : i.val < (ByteArray.mk (Array.ofFn f)).size) :
    (ByteArray.mk (Array.ofFn f))[i.val] = f i := by
  rw [ByteArray.getElem_eq_getElem_data, Array.getElem_ofFn]

@[simp] theorem get_ofFn (f : Offset → UInt8) (i : Offset) : (ofFn f).get i = f i := by
  unfold get ofFn
  exact getElem_mk_ofFn f i _

theorem get_set (m : PageImage) (i j : Offset) (b : UInt8) :
    (m.set i b).get j = if i = j then b else m.get j := by
  simp [set, get, ByteArray.getElem_eq_getElem_data, Array.getElem_set, Fin.ext_iff]

/-- Two images with the same bytes are the same image. -/
theorem ext {m n : PageImage} (h : ∀ i, m.get i = n.get i) : m = n := by
  obtain ⟨a, ha⟩ := m
  obtain ⟨b, hb⟩ := n
  congr
  exact ByteArray.ext_getElem (ha.trans hb.symm) fun i hi _ => h ⟨i, ha ▸ hi⟩

theorem get_splice (new old : PageImage) (k : Nat) (i : Offset) :
    (splice new old k).get i = if i.val < k then new.get i else old.get i := by
  have hi := i.isLt
  have hn := new.size_eq
  have ho := old.size_eq
  unfold splice get
  by_cases h : i.val < k
  · rw [ByteArray.getElem_append_left (by simp [ByteArray.size_extract]; omega)]
    simp only [ByteArray.getElem_extract, h, Nat.zero_add, if_true]
  · rw [ByteArray.getElem_append_right (by simp [ByteArray.size_extract]; omega)]
    simp only [ByteArray.getElem_extract, ByteArray.size_extract, h, if_false]
    congr 1
    omega

/-- A write that stores every byte leaves the new image. -/
theorem splice_of_pageSize_le {new old : PageImage} {k : Nat} (h : pageSize ≤ k) :
    splice new old k = new :=
  ext fun i => by simp [get_splice, Nat.lt_of_lt_of_le i.isLt h]

end PageImage

end DemandPaging
