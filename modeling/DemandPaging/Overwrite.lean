/-!
# Overwriting a part of a byte sequence

A positioned write replaces the bytes from one position on and leaves the
length and all other bytes as they are.
-/

namespace DemandPaging

/-- `dest` with its bytes from `start` on replaced by the first `k` bytes of `src`. -/
def overwrite (src dest : ByteArray) (start k : Nat) : ByteArray := src.copySlice 0 dest start k

variable {src dest : ByteArray} {start k j : Nat}

theorem size_overwrite (h : start + k ≤ dest.size) (hk : k ≤ src.size) :
    (overwrite src dest start k).size = dest.size := by
  have hs : src.data.size = src.size := rfl
  have hd : dest.data.size = dest.size := rfl
  rw [overwrite, ByteArray.copySlice_eq_append]
  simp only [ByteArray.size_append, ByteArray.size_extract, hs, hd]
  omega

theorem getElem_overwrite (h : start + k ≤ dest.size) (hk : k ≤ src.size) (hj : j < dest.size) :
    getElem (overwrite src dest start k) j (by rw [size_overwrite h hk]; exact hj) =
      if g : start ≤ j ∧ j < start + k then src[j - start] else dest[j] := by
  have hs : src.data.size = src.size := rfl
  have hd : dest.data.size = dest.size := rfl
  simp only [overwrite, ByteArray.copySlice_eq_append]
  by_cases before : j < start
  · rw [ByteArray.getElem_append_left
        (by simp only [ByteArray.size_append, ByteArray.size_extract]; omega),
      ByteArray.getElem_append_left (by simp only [ByteArray.size_extract]; omega)]
    simp only [ByteArray.getElem_extract]
    rw [dif_neg (by omega)]
    congr 1
    omega
  · by_cases inside : j < start + k
    · rw [ByteArray.getElem_append_left
          (by simp only [ByteArray.size_append, ByteArray.size_extract]; omega),
        ByteArray.getElem_append_right (by simp only [ByteArray.size_extract]; omega)]
      simp only [ByteArray.getElem_extract, ByteArray.size_extract]
      rw [dif_pos (by omega)]
      congr 1
      omega
    · rw [ByteArray.getElem_append_right
        (by simp only [ByteArray.size_append, ByteArray.size_extract]; omega)]
      simp only [ByteArray.getElem_extract, ByteArray.size_append, ByteArray.size_extract]
      rw [dif_neg (by omega)]
      congr 1
      omega

end DemandPaging
