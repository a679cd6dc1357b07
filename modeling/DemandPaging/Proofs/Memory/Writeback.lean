import DemandPaging.Proofs.Memory.Footprint

/-!
# What is written to the swap file

A slot is written when a page leaves that counts as written, and at no other time. This is said
twice: the slots of all other pages stay as they are, and it makes no difference what would have
become of a write to one of them.
-/

namespace DemandPaging

/-- The same host, but for what becomes of writes to slots. -/
def Host.withWrites (host : Host) (w : Page → Option TornWrite) : Host := { host with writeSlot := w }

namespace Memory

open Step

variable {host : Host} {s : Memory} {p q : Page} {code : FaultCode} {kind : FaultKind}
  {w : Page → Option TornWrite}

/-! ## Slots -/

/-- A fault leaves the slot of a page that was not written as it is. -/
theorem Sound.slot_resolved (h : s.Sound) (hk : FaultKind.classify p (s.entry p) code = .ok kind)
    (hq : (s.entry q).dirty = false) : (s.resolved p kind).swap.slot q = s.swap.slot q := by
  obtain ⟨leaving, hfootprint, -⟩ := h.exists_footprint hk
  by_cases hp : q = p
  · rw [hp, hfootprint.slot]
  · by_cases hleaving : q ∈ leaving
    · simp [hfootprint.saved q hleaving, hq]
    · exact congrArg Cell.slot (hfootprint.untouched q hp hleaving)

/-- A tick touches no slot. -/
theorem swap_ticked (host : Host) (s : Memory) : (s.ticked host).swap = s.swap :=
  s.policy.tick_keeps (tracker host) (P := fun t => t.swap = s.swap) (fun _ _ ht _ => ht) rfl

/-! ## Writes -/

/-- Saving a page depends on what becomes of the write to its slot, and on no other write. -/
theorem flush_withWrites (hw : w p = host.writeSlot p) : flush (host.withWrites w) p = flush host p := by
  unfold flush SwapFile.write SwapFile.writeFailure
  simp only [Host.withWrites, hw]
  rfl

/-- A page that was not written leaves without a write. -/
theorem agree_unload (hw : (s.entry p).dirty = true → w p = host.writeSlot p) :
    Agree (unload (host.withWrites w) p) (unload host p) s := by
  refine (yields_query _ s).agree_bind ?_
  have hsame : ∀ o : Option PagerError,
      (refuse o).Ensures s (fun (_ : Unit) t => t = s) fun _ _ => True :=
    fun _ => ensures_refuse (fun _ => rfl) fun _ _ => trivial
  apply (hsame _).agree_bind
  rintro ⟨⟩ t ht
  rw [ht]
  cases hd : (s.entry p).dirty with
  | false => exact .refl _ _
  | true =>
    rw [flush_withWrites (hw hd)]
    exact .refl _ _

/-- An eviction depends on what becomes of the write of its victim, if that was written. -/
theorem agree_evictOne (faulting : Page) (hw : ∀ victim, s.policy.evict.1 = some victim →
      (s.entry victim).dirty = true → w victim = host.writeSlot victim) :
    Agree (evictOne (host.withWrites w) faulting) (evictOne host faulting) s := by
  refine (yields_apply _ s).agree_bind ?_
  cases hevict : s.policy.evict.1 with
  | none => exact .refl _ _
  | some victim =>
    refine (yields_report _ _).agree_bind ?_
    exact (agree_unload (s := { s with policy := s.policy.evict.2 }) (hw victim hevict)).bind _

/-- A fault depends on what becomes of the writes of pages that were written, and only if the page
is absent. -/
theorem Sound.agree_handleFault (h : s.Sound) (hw : (s.entry p).resident = false →
      ∀ q, (s.entry q).resident = true → (s.entry q).dirty = true → w q = host.writeSlot q) :
    Agree (handleFault (host.withWrites w) p code) (handleFault host p code) s := by
  cases hk : FaultKind.classify p (s.entry p) code with
  | error e =>
    intro journal
    rw [handleFault_of_refused _ hk, handleFault_of_refused _ hk]
  | ok kind =>
    refine (yields_query _ s).agree_bind ?_
    refine (yields_ofExcept hk s).agree_bind ?_
    refine (yields_update _ s).agree_bind ?_
    refine (yields_report _ s.counted).agree_bind ?_
    rcases resident_of_classify hk with ⟨rfl, hr⟩ | ⟨rfl, -, -⟩ | ⟨rfl, -, -⟩
    · refine (yields_query _ s.counted).agree_bind ?_
      split
      · rename_i hfull
        obtain ⟨victim, policy, hevict, hperm⟩ := h.counted.exists_victim (of_decide_eq_true hfull)
        have hvictim : (s.entry victim).resident = true := h.resident_of_perm hperm
        have hone : Agree (evictOne (host.withWrites w) p) (evictOne host p) s.counted := by
          apply agree_evictOne
          intro q hq hd
          rw [hevict] at hq
          cases hq
          exact hw hr victim hvictim hd
        exact hone.bind _
      · exact .refl _ _
    · exact .refl _ _
    · exact .refl _ _

/-- A tick writes nothing. -/
theorem tick_withWrites (host : Host) (w : Page → Option TornWrite) :
    tick (host.withWrites w) = tick host := rfl

end Memory

end DemandPaging
