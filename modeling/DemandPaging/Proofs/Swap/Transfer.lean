import DemandPaging.Proofs.Yields
import DemandPaging.Swap

/-!
# Transfers to and from the swap file

Pages are written to their slots and read back, in any order. Between two transfers the host may
limit the size of files: a write that reaches beyond the limit stores the bytes below it and fails.
The bytes of a slot lie in one flat file, and a transfer touches no byte outside of the slot of its
page. So what a slot holds is decided by the last write to it: every byte of the slot below the
limit of that write is new, and every other byte is the former one.
-/

namespace DemandPaging

open Step

/-- The host in which files are limited to so many bytes, or not limited. -/
def Host.limited : Option Nat → Host
  | some limit => Host.willing.withFileLimit limit
  | none => .willing

namespace SwapFile

/-- The position in the file at which writes end under a limit. -/
def fileEnd : Option Nat → Nat
  | some limit => if limit + 1 = wordLimit then swapSize else Host.writeEnd limit
  | none => swapSize

/-- A transfer of one page. -/
inductive Transfer where
  /-- A page is written while files are limited, or not limited. -/
  | write (limit : Option Nat) (p : Page) (image : PageImage)
  /-- A page is read. -/
  | read (p : Page)

namespace Transfer

/-- The page that is transferred. -/
def page : Transfer → Page
  | write _ p _ | read p => p

/-- The transfer is a write of page `p`. -/
def Writes (p : Page) : Transfer → Prop
  | write _ q _ => q = p
  | read _ => False

end Transfer

/-- A transfer: how it ends, with the image that was read, and the file after it. -/
def transfer (f : SwapFile) : Transfer → Except SwapError (Option PageImage) × SwapFile
  | .write limit p image =>
    (match writeFailure (Host.limited limit) p with
      | some e => .error e
      | none => .ok none,
      f.write (Host.limited limit) p image)
  | .read p => ((f.read .willing p).map some, f)

/-- The file after transfers in a row. -/
def after (f : SwapFile) (transfers : List Transfer) : SwapFile :=
  transfers.foldl (fun f t => (f.transfer t).2) f

variable {f : SwapFile} {limit : Option Nat} {p q : Page} {image : PageImage}

/-! ## Writes under a limit -/

/-- What the host does to a write: it is cut short if its slot reaches beyond the limit. -/
theorem writeSlot_limited (limit : Option Nat) (p : Page) : (Host.limited limit).writeSlot p =
    if fileEnd limit < Host.slotOffset p + pageSize then
      some ⟨fileEnd limit - Host.slotOffset p, .fileTooLarge⟩
    else none := by
  have hfits := slot_fits p
  cases limit with
  | none => exact (if_neg (Nat.not_lt.mpr hfits)).symm
  | some limit =>
    simp only [Host.limited, Host.withFileLimit]
    by_cases hnone : limit + 1 = wordLimit
    · have hend : fileEnd (some limit) = swapSize := if_pos hnone
      rw [if_pos hnone, hend, if_neg (Nat.not_lt.mpr hfits)]
      rfl
    · have hend : fileEnd (some limit) = Host.writeEnd limit := if_neg hnone
      rw [if_neg hnone, hend]
      rfl

/-- A write fails exactly if its slot reaches beyond the limit. -/
theorem writeFailure_limited (limit : Option Nat) (p : Page) :
    writeFailure (Host.limited limit) p =
      if fileEnd limit < Host.slotOffset p + pageSize then some (.write p .fileTooLarge)
      else none := by
  rw [writeFailure, writeSlot_limited]
  split <;> rfl

/-- More than a page is never stored. -/
theorem store_of_pageSize_le {k : Nat} (h : pageSize ≤ k) :
    f.store p image k = f.store p image pageSize := by
  simp only [store, Nat.min_eq_right h, Nat.min_self]

/-- A write stores the bytes of its slot that lie below the limit. -/
theorem write_limited (f : SwapFile) (limit : Option Nat) (p : Page) (image : PageImage) :
    f.write (Host.limited limit) p image = f.store p image (fileEnd limit - Host.slotOffset p) := by
  rw [write, writeSlot_limited]
  by_cases hcut : fileEnd limit < Host.slotOffset p + pageSize
  · rw [if_pos hcut]
  · rw [if_neg hcut, store_of_pageSize_le (k := fileEnd limit - Host.slotOffset p) (by omega)]

/-- Of the slot that is written, the bytes below the limit are new. -/
theorem byte_write_limited (f : SwapFile) (limit : Option Nat) (p : Page) (image : PageImage)
    (i : Offset) : (f.write (Host.limited limit) p image).byte (position p i) =
      if (position p i).val < fileEnd limit then image.get i else f.byte (position p i) := by
  have hi := i.isLt
  rw [write_limited, byte_store]
  by_cases hbelow : (position p i).val < fileEnd limit
  · rw [if_pos hbelow, dif_pos]
    · congr 1
      exact Fin.ext (Nat.add_sub_cancel_left ..)
    · simp only [position] at hbelow ⊢
      omega
  · rw [if_neg hbelow, dif_neg]
    simp only [position] at hbelow ⊢
    omega

/-- A slot that lies below the limit is written as a whole. -/
theorem slot_write_of_le (h : Host.slotOffset p + pageSize ≤ fileEnd limit) :
    (f.write (Host.limited limit) p image).slot p = image := by
  apply PageImage.ext
  intro i
  have hi := i.isLt
  rw [get_slot, byte_write_limited, if_pos]
  simp only [position]
  omega

/-! ## Transfers in a row -/

/-- A transfer changes no byte outside of the slot of its page. -/
theorem byte_transfer (f : SwapFile) (t : Transfer) {j : Fin swapSize}
    (hj : ¬ (Host.slotOffset t.page ≤ j.val ∧ j.val < Host.slotOffset t.page + pageSize)) :
    (f.transfer t).2.byte j = f.byte j := by
  cases t with
  | read p => rfl
  | write limit p image =>
    change (f.write (Host.limited limit) p image).byte j = _
    rw [write_limited, byte_store, dif_neg]
    simp only [Transfer.page] at hj
    omega

/-- A transfer changes no slot but that of the page that it writes. -/
theorem slot_transfer (f : SwapFile) {t : Transfer} (ht : ¬ t.Writes q) :
    (f.transfer t).2.slot q = f.slot q := by
  cases t with
  | read p => rfl
  | write limit p image =>
    change (f.write (Host.limited limit) p image).slot q = _
    have hpq : p ≠ q := ht
    rw [write_limited, slot_store, if_neg hpq]

theorem after_append (f : SwapFile) (earlier later : List Transfer) :
    f.after (earlier ++ later) = (f.after earlier).after later :=
  List.foldl_append

/-- A slot stays as it is as long as its page is not written. -/
theorem slot_after {transfers : List Transfer} (h : ∀ t ∈ transfers, ¬ t.Writes q) :
    (f.after transfers).slot q = f.slot q := by
  induction transfers generalizing f with
  | nil => rfl
  | cons t transfers ih =>
    obtain ⟨ht, hrest⟩ := List.forall_mem_cons.mp h
    exact (ih hrest).trans (f.slot_transfer ht)

/-- A read hands out the slot of its page. -/
theorem transfer_read (f : SwapFile) (p : Page) : (f.transfer (.read p)).1 = .ok (some (f.slot p)) :=
  rfl

/-- The file is created with zeros in it. -/
theorem yields_create (directory : Option String) :
    (create .willing directory).Yields () blank () #[.swapReady] := by
  refine (yields_refuse (o := none) rfl ()).bind_silent ?_
  refine (yields_refuse (o := none) rfl ()).bind_silent ?_
  exact (yields_report _ ()).bind_last (Yields.pure _ ())

/-- After any transfers the file has its size. A page that was never written reads as zeros. A page
that was written reads as the image of the last write to it if that write succeeded, which it does
exactly if the slot of the page ends below the limit of the write. Otherwise the bytes of the slot
are those of the image up to the limit and those before that write from there on. No transfer
changes a byte outside of the slot of its page, so none changes the slot of another page. -/
theorem read_after_transfers (directory : Option String) :
    ∃ f₀ es, (create .willing directory).Yields () f₀ () es ∧ ∀ history : List Transfer,
      (f₀.after history).bytes.size = swapSize ∧
      (∀ p, (∀ t ∈ history, ¬ t.Writes p) →
        ((f₀.after history).transfer (.read p)).1 = .ok (some .zero)) ∧
      (∀ earlier later limit p image, history = earlier ++ .write limit p image :: later →
        (∀ t ∈ later, ¬ t.Writes p) →
        if Host.slotOffset p + pageSize ≤ fileEnd limit then
          ((f₀.after earlier).transfer (.write limit p image)).1 = .ok none ∧
            ((f₀.after history).transfer (.read p)).1 = .ok (some image)
        else
          ((f₀.after earlier).transfer (.write limit p image)).1 =
              .error (.write p .fileTooLarge) ∧
            ∃ torn, ((f₀.after history).transfer (.read p)).1 = .ok (some torn) ∧
              ∀ i, torn.get i = if Host.slotOffset p + i.val < fileEnd limit then image.get i
                else ((f₀.after earlier).slot p).get i) ∧
      ∀ t, (∀ j : Fin swapSize,
          ¬ (Host.slotOffset t.page ≤ j.val ∧ j.val < Host.slotOffset t.page + pageSize) →
            ((f₀.after history).transfer t).2.byte j = (f₀.after history).byte j) ∧
        ∀ q ≠ t.page, ((f₀.after history).transfer t).2.slot q = (f₀.after history).slot q := by
  refine ⟨blank, _, yields_create directory, fun history => ⟨(blank.after history).size_eq, ?_, ?_, ?_⟩⟩
  · intro p hnever
    rw [transfer_read, slot_after hnever, slot_blank]
  · rintro earlier later limit p image rfl hlater
    have hslot : (blank.after (earlier ++ .write limit p image :: later)).slot p =
        ((blank.after earlier).write (Host.limited limit) p image).slot p := by
      rw [after_append]
      exact slot_after hlater
    have hend : ((blank.after earlier).transfer (.write limit p image)).1 =
        match writeFailure (Host.limited limit) p with
        | some e => .error e
        | none => .ok none := rfl
    rw [transfer_read, hslot, hend, writeFailure_limited]
    by_cases hfits : Host.slotOffset p + pageSize ≤ fileEnd limit
    · rw [if_pos hfits, if_neg (Nat.not_lt.mpr hfits), slot_write_of_le hfits]
      exact ⟨rfl, rfl⟩
    · rw [if_neg hfits, if_pos (Nat.lt_of_not_le hfits)]
      refine ⟨rfl, _, rfl, fun i => ?_⟩
      rw [get_slot, byte_write_limited, get_slot]
      rfl
  · intro t
    refine ⟨fun j hj => byte_transfer _ t hj, fun q hq => slot_transfer _ ?_⟩
    cases t with
    | read p => exact id
    | write limit p image => exact fun hp => hq hp.symm

/-- A page is saved, and then only the first 100 bytes of another image of it. -/
theorem read_after_transfers_torn : ∃ f₀ es, (create .willing none).Yields () f₀ () es ∧
    ∃ torn, ((f₀.after [.write none 1 (.ofFn fun _ => 7), .write (some 4196) 1 (.ofFn fun _ => 9),
        .write none 2 .zero]).transfer (.read 1)).1 = .ok (some torn) ∧
      torn.get 99 = 9 ∧ torn.get 100 = 7 := by
  obtain ⟨f₀, es, hnew, hall⟩ := read_after_transfers none
  have hother : ∀ t ∈ [Transfer.write none 2 .zero], ¬ t.Writes 1 := by
    rintro t ht
    rw [List.mem_singleton.mp ht]
    exact fun h : (2 : Page) = 1 => absurd h (by decide)
  have hfirst := (hall [.write none 1 (.ofFn fun _ => 7)]).2.2.1 [] [] none 1 _ rfl
    fun _ h => nomatch h
  rw [if_pos (by decide)] at hfirst
  have hslot : (f₀.after [.write none 1 (.ofFn fun _ => 7)]).slot 1 = .ofFn fun _ => 7 := by
    have hread := hfirst.2
    rw [transfer_read] at hread
    exact Option.some.inj (Except.ok.inj hread)
  have hsecond := (hall [.write none 1 (.ofFn fun _ => 7), .write (some 4196) 1 (.ofFn fun _ => 9),
    .write none 2 .zero]).2.2.1 [.write none 1 (.ofFn fun _ => 7)] [.write none 2 .zero] (some 4196) 1
    _ rfl hother
  rw [if_neg (by decide), hslot] at hsecond
  obtain ⟨-, torn, hread, hbytes⟩ := hsecond
  refine ⟨f₀, es, hnew, torn, hread, ?_, ?_⟩
  · rw [hbytes, if_pos (by decide), PageImage.get_ofFn]
  · rw [hbytes, if_neg (by decide), PageImage.get_ofFn]

end SwapFile

end DemandPaging
