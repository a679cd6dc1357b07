import DemandPaging.Proofs.Memory.History
import DemandPaging.Proofs.Memory.Shows
import Mathlib.Order.Bounds.Defs

/-!
# Allocations

Memory is handed out from the start of the range to its end. Nothing but an allocation moves the
border between the bytes in use and the others, so the regions that were granted stand one behind the
other and the border is the end of the last of them, whatever happened between two requests and
whatever the host refused. The border alone decides about the next request; one that is refused
leaves it where it is.
-/

namespace DemandPaging.Memory

open Step

variable {host host₀ : Host} {config : Config} {s t : Memory} {range : Range}
  {regions : List Region} {size : Nat}

/-! ## What leaves the border where it is -/

/-- The range is the same, and as many bytes of it are in use. -/
def SameExtent (s t : Memory) : Prop := t.extent = s.extent

instance : IsPreorder Memory SameExtent where
  refl _ := rfl
  trans _ _ _ h h' := h'.trans h

theorem keeps_protect (host : Host) (p : Page) (perm : Permission) :
    Keeps SameExtent (protect host p perm) := by
  refine .bind (keeps_query _) fun failure => ?_
  refine .bind (keeps_refuse _) fun _ => ?_
  refine .bind (keeps_update fun _ => rfl) fun _ => ?_
  exact keeps_update fun _ => rfl

theorem keeps_flush (host : Host) (p : Page) : Keeps SameExtent (flush host p) := by
  refine .bind (keeps_protect host p .read) fun _ => ?_
  refine .bind (keeps_update fun _ => rfl) fun _ => ?_
  refine .bind (keeps_refuse _) fun _ => ?_
  refine .bind (keeps_update fun _ => rfl) fun _ => ?_
  exact keeps_update fun _ => rfl

theorem keeps_unload (host : Host) (p : Page) : Keeps SameExtent (unload host p) := by
  have hrest : Keeps SameExtent (do
      refuse ((Mapping.unbindFailure host p).map .map)
      update fun s : Memory => { s with mapping := s.mapping.unbind p }
      record (·.clear p)
      report (.unmapped p)) := by
    refine .bind (keeps_refuse _) fun _ => ?_
    refine .bind (keeps_update fun _ => rfl) fun _ => ?_
    refine .bind (keeps_update fun _ => rfl) fun _ => ?_
    exact keeps_report _
  refine .bind (keeps_query _) fun e => ?_
  refine .bind (keeps_refuse _) fun _ => ?_
  split
  · exact .bind (keeps_flush host p) fun _ => hrest
  · exact hrest

theorem keeps_load (host : Host) (p : Page) (perm : Permission) :
    Keeps SameExtent (load host p perm) := by
  refine .bind (keeps_query _) fun full => ?_
  refine .bind (keeps_refuse _) fun _ => ?_
  refine .bind (keeps_refuse _) fun _ => ?_
  refine .bind (keeps_update fun _ => rfl) fun _ => ?_
  refine .bind (keeps_query _) fun slot => ?_
  refine .bind (keeps_ofExcept _) fun image => ?_
  refine .bind (keeps_update fun _ => rfl) fun _ => ?_
  refine .bind (keeps_update fun _ => rfl) fun _ => ?_
  refine .bind (keeps_protect host p perm) fun _ => ?_
  refine .bind (keeps_update fun _ => rfl) fun _ => ?_
  exact keeps_report _

theorem keeps_evictOne (host : Host) (faulting : Page) :
    Keeps SameExtent (evictOne host faulting) := by
  refine .bind (keeps_apply fun _ => rfl) fun victim? => ?_
  cases victim? with
  | none => exact keeps_fail _
  | some victim =>
    refine .bind (keeps_report _) fun _ => ?_
    refine .bind (keeps_unload host victim) fun _ => ?_
    exact keeps_update fun _ => rfl

theorem keeps_track (p : Page) : Keeps SameExtent (track p) := by
  refine .bind (keeps_query _) fun checked => ?_
  refine .bind (keeps_ofChecked _) fun policy => ?_
  exact keeps_update fun _ => rfl

/-- A fault leaves the border where it is, whether it is resolved or not. -/
theorem keeps_handleFault (host : Host) (p : Page) (code : FaultCode) :
    Keeps SameExtent (handleFault host p code) := by
  refine .bind (keeps_query _) fun e => ?_
  refine .bind (keeps_ofExcept _) fun kind => ?_
  refine .bind (keeps_update fun _ => rfl) fun _ => ?_
  refine .bind (keeps_report _) fun _ => ?_
  cases kind with
  | pageIn =>
    have hrest : Keeps SameExtent (do
        load host p .read
        record (·.setAccessed p true)
        track p
        return FaultKind.pageIn) := by
      refine .bind (keeps_load host p .read) fun _ => ?_
      refine .bind (keeps_update fun _ => rfl) fun _ => ?_
      refine .bind (keeps_track p) fun _ => ?_
      exact keeps_pure _
    refine .bind (keeps_query _) fun full => ?_
    split
    · exact .bind (keeps_evictOne host p) fun _ => hrest
    · exact hrest
  | grantRead | grantWrite =>
    refine .bind (keeps_protect host p _) fun _ => ?_
    refine .bind (keeps_update fun _ => rfl) fun _ => ?_
    exact keeps_pure _

theorem sameExtent_perform_fault (host : Host) (s : Memory) (p : Page) (code : FaultCode) :
    SameExtent s (s.perform host (.fault p code)) :=
  ((keeps_handleFault host p code).bind fun _ => keeps_pure ()).state_after s #[]

/-- A tick leaves the border where it is, also one that is stopped. -/
theorem sameExtent_perform_tick (host : Host) (s : Memory) :
    SameExtent s (s.perform host .tick) := by
  rw [perform_tick]
  exact extent_ticked host s

theorem sameExtent_meet_store (s : Memory) (p : Page) (i : Offset) (b : UInt8) :
    SameExtent s (s.meet (.store p i b)) := by
  rw [meet_store]
  split <;> rfl

/-! ## Regions that were granted -/

/-- What is granted by an incident: a region, if memory is requested and there is room. -/
def Incident.granted? (s : Memory) : Incident → Option Region
  | .action _ (.allocate size) =>
    match (allocate size).outcome s with
    | .ok (start?, _) => start?.map (⟨·, size⟩)
    | .error _ => none
  | _ => none

/-- The regions that are granted by incidents in a row. -/
def granted (s : Memory) : List Incident → List Region
  | [] => []
  | x :: later => (x.granted? s).toList ++ (s.meet x).granted later

/-- The end of the last region, counted from the start of the range. -/
def border (range : Range) (regions : List Region) : Nat :=
  match regions.getLast? with
  | some r => r.start.toNat + r.length - range.base.toNat
  | none => 0

/-- What a request leaves behind and what it is granted. -/
theorem meet_allocate {start? : Option Address} {es : Array Event}
    (h : (allocate size).Yields s start? t es) (host : Host) :
    s.meet (.action host (.allocate size)) = t ∧
      (Incident.action host (.allocate size)).granted? s = start?.map (⟨·, size⟩) := by
  refine ⟨(h.bind_last (Yields.pure () t)).state_after #[], ?_⟩
  simp only [Incident.granted?, h.outcome]

/-- The answer to a request stands in front of what is granted later. -/
theorem granted_allocate {start? : Option Address} {es : Array Event}
    (h : (allocate size).Yields s start? t es) (host : Host) (later : List Incident) :
    s.granted (.action host (.allocate size) :: later) =
      (start?.map (⟨·, size⟩)).toList ++ t.granted later := by
  obtain ⟨hstate, hgranted⟩ := meet_allocate h host
  rw [granted, hstate, hgranted]

/-- The bytes in use are those of the range up to the end of the last region, and the regions stand
in front of one another. -/
structure Carved (range : Range) (s : Memory) (regions : List Region) : Prop where
  /-- The range is where it was. -/
  place : s.mapping.range = range
  /-- The bytes in use end with the last region. -/
  used : s.allocated = border range regions
  /-- Every region lies in the range, below the border. -/
  lies : ∀ r ∈ regions, ∃ k, r.Lies range k ∧ k + r.length ≤ s.allocated
  /-- Every region ends before the later ones start. -/
  ascending : regions.Pairwise fun r r' => r.start.toNat + r.length ≤ r'.start.toNat
  /-- The border lies in the range. -/
  bounded : s.allocated ≤ memorySize

theorem Fresh.carved (h : Fresh host config s) : Carved s.mapping.range s [] where
  place := rfl
  used := h.allocated
  lies _ hr := absurd hr List.not_mem_nil
  ascending := .nil
  bounded := by simp [h.allocated]

namespace Carved

theorem of_sameExtent (h : Carved range s regions) (hsame : SameExtent s t) :
    Carved range t regions := by
  have hrange : t.mapping.range = s.mapping.range := congrArg Prod.fst hsame
  have hused : t.allocated = s.allocated := congrArg Prod.snd hsame
  obtain ⟨hr, hu, hlies, hascending, hbounded⟩ := h
  rw [← hused] at hu hlies hbounded
  exact ⟨hrange.trans hr, hu, hlies, hascending, hbounded⟩

/-- One more region starts at the first aligned position behind the border. -/
theorem grant (h : Carved range s regions) (hroom : alignUp s.allocated + size ≤ memorySize) :
    Carved range { s with allocated := alignUp s.allocated + size }
      (regions ++ [⟨Address.ofNat (s.mapping.range.base.toNat + alignUp s.allocated), size⟩]) := by
  obtain ⟨rfl, hused, hlies, hascending, hbounded⟩ := h
  have hnext : Region.Lies ⟨Address.ofNat (s.mapping.range.base.toNat + alignUp s.allocated), size⟩
      s.mapping.range (alignUp s.allocated) :=
    FlatMemory.lies_next (f := ⟨s.mapping.range, s.allocated, fun _ => 0⟩) hroom
  have hup := le_alignUp s.allocated
  constructor
  · rfl
  · simp only [border, List.getLast?_concat, hnext.start]
    omega
  · intro r hr
    rcases List.mem_append.mp hr with hold | hlast
    · obtain ⟨k, hk, hend⟩ := hlies r hold
      exact ⟨k, hk, by simp only; omega⟩
    · obtain rfl := List.mem_singleton.mp hlast
      exact ⟨_, hnext, Nat.le_refl _⟩
  · rw [List.pairwise_append]
    refine ⟨hascending, List.pairwise_singleton _ _, fun r hr r' hr' => ?_⟩
    obtain rfl := List.mem_singleton.mp hr'
    obtain ⟨k, hk, hend⟩ := hlies r hr
    rw [hk.start, hnext.start]
    omega
  · exact hroom

/-- An incident grants a region or leaves the border where it is. -/
theorem meet (h : Carved range s regions) (x : Incident) :
    Carved range (s.meet x) (regions ++ (x.granted? s).toList) := by
  have hstill (hsame : SameExtent s (s.meet x)) (hnone : x.granted? s = none) :
      Carved range (s.meet x) (regions ++ (x.granted? s).toList) := by
    simpa [hnone] using h.of_sameExtent hsame
  cases x with
  | store p i b => exact hstill (sameExtent_meet_store s p i b) rfl
  | action host a =>
    cases a with
    | fault p code => exact hstill (sameExtent_perform_fault host s p code) rfl
    | tick => exact hstill (sameExtent_perform_tick host s) rfl
    | allocate size =>
      by_cases hroom : alignUp s.allocated + size ≤ memorySize
      · obtain ⟨hstate, hgranted⟩ := meet_allocate (yields_allocate_of_room hroom) host
        rw [hstate, hgranted]
        exact h.grant hroom
      · obtain ⟨es, hrefused, -⟩ := exists_yields_allocate_of_full hroom
        obtain ⟨hstate, hgranted⟩ := meet_allocate hrefused host
        simpa [hstate, hgranted] using h

theorem lived (h : Carved range s regions) (incidents : List Incident) :
    Carved range (s.lived incidents) (regions ++ s.granted incidents) := by
  induction incidents generalizing s regions with
  | nil => simpa [granted, Memory.lived] using h
  | cons x incidents ih =>
    have hrest := ih (h.meet x)
    rwa [List.append_assoc] at hrest

end Carved

/-! ## The next request -/

/-- Rounding up leads to the first aligned position. -/
theorem isLeast_alignUp (n : Nat) : IsLeast {k | n ≤ k ∧ allocationAlignment ∣ k} (alignUp n) := by
  refine ⟨⟨le_alignUp n, Nat.dvd_of_mod_eq_zero (alignUp_mod n)⟩, ?_⟩
  rintro k ⟨hle, hdvd⟩
  simp only [alignUp, allocationAlignment] at *
  omega

/-- Whatever was requested before, whatever happened in between and whatever the host refused: the
regions that were granted are aligned, lie inside the range and stand in front of one another, so that
no two of them overlap. The next request runs to its end, for any number of bytes. It is granted
exactly if there is room for it behind the first aligned position after the last region, and then the
region starts there. A request that is refused changes nothing; what is granted after it is what
would have been granted without it. -/
theorem allocate_of_new {s₀ : Memory} {es : Array Event} {incidents : List Incident}
    (hnew : (new host₀ config).Yields () s₀ () es) (hs : s₀.lived incidents = s)
    (hregions : s₀.granted incidents = regions) :
    (∀ r ∈ regions, allocationAlignment ∣ r.start.toNat ∧
        s₀.mapping.range.base.toNat ≤ r.start.toNat ∧
        r.start.toNat + r.length ≤ s₀.mapping.range.stop.toNat) ∧
      regions.Pairwise (fun r r' => r.start.toNat + r.length ≤ r'.start.toNat) ∧
      ∀ size, ∃ k,
        IsLeast {k | border s₀.mapping.range regions ≤ k ∧ allocationAlignment ∣ k} k ∧
        k ≤ memorySize ∧
        ∃ start? t es, (allocate size).Yields s start? t es ∧
          (start?.isSome = true ↔ k + size ≤ memorySize) ∧
          (∀ start, start? = some start → start.toNat = s₀.mapping.range.base.toNat + k) ∧
          (start? = none → t = s) ∧
          ∀ host later, s.granted (.action host (.allocate size) :: later) =
            (start?.map (⟨·, size⟩)).toList ++ t.granted later := by
  obtain ⟨hfresh, -⟩ := fresh_of_new hnew
  have hcarved := hfresh.carved.lived incidents
  rw [hs, hregions, List.nil_append] at hcarved
  obtain ⟨hrange, hused, hlies, hascending, hbounded⟩ := hcarved
  refine ⟨fun r hr => ?_, hascending, fun size => ?_⟩
  · obtain ⟨k, hk, -⟩ := hlies r hr
    have hbase := (Address.isPageAligned_iff _).mp s₀.mapping.range.aligned
    have hstart := hk.start
    have haligned := hk.aligned
    have hinside := hk.inside
    rw [Range.toNat_stop]
    simp only [allocationAlignment, pageSize] at *
    omega
  · have hleast := isLeast_alignUp s.allocated
    have hlimit : alignUp s.allocated ≤ memorySize := hleast.2 ⟨hbounded, by decide⟩
    refine ⟨alignUp s.allocated, hused ▸ hleast, hlimit, ?_⟩
    by_cases hroom : alignUp s.allocated + size ≤ memorySize
    · have hgrant := yields_allocate_of_room hroom
      refine ⟨_, _, _, hgrant, iff_of_true rfl hroom, fun start hstart => ?_, nofun,
        fun host later => granted_allocate hgrant host later⟩
      cases hstart
      rw [hrange]
      have hfits := s₀.mapping.range.fits
      exact Address.toNat_ofNat (by omega)
    · obtain ⟨es, hrefused, -⟩ := exists_yields_allocate_of_full hroom
      exact ⟨none, s, es, hrefused, iff_of_false Bool.false_ne_true hroom, nofun, fun _ => rfl,
        fun host later => granted_allocate hrefused host later⟩

/-- A request for almost all addresses is refused between two others that use the range up. After that
only nothing can be requested. -/
theorem allocate_of_new_full : ∃ s₀ es s, (new .willing {}).Yields () s₀ () es ∧
    s₀.lived [.action .willing (.allocate 3), .action .willing (.allocate 18446744073709551615),
      .action .willing (.allocate 16777208)] = s ∧
    (∃ start t es, (allocate 0).Yields s (some start) t es ∧
      start.toNat = s₀.mapping.range.base.toNat + 16777216) ∧
    ∃ es, (allocate 1).Yields s none s es := by
  have hvalid : ({} : Config).validate = .ok () := rfl
  obtain ⟨s₀, es, hnew, hfresh⟩ := exists_fresh Host.ready_willing hvalid ()
  have hnone : alignUp 0 = 0 := rfl
  have hthree : alignUp 3 = 8 := rfl
  have hroom : alignUp s₀.allocated + 3 ≤ memorySize := by
    simp [hfresh.allocated, hnone, memorySize]
  have hfirst := yields_allocate_of_room hroom
  rw [hfresh.allocated, hnone, Nat.add_zero] at hfirst
  have hfull : ¬ alignUp ({ s₀ with allocated := 3 } : Memory).allocated + 18446744073709551615 ≤
      memorySize := by simp [hthree, memorySize]
  obtain ⟨es₂, hsecond, -⟩ := exists_yields_allocate_of_full hfull
  have hrest : alignUp ({ s₀ with allocated := 3 } : Memory).allocated + 16777208 ≤ memorySize := by
    simp [hthree, memorySize]
  have hthird := yields_allocate_of_room hrest
  have hgranted : s₀.granted [.action .willing (.allocate 3),
      .action .willing (.allocate 18446744073709551615), .action .willing (.allocate 16777208)] =
        [⟨Address.ofNat s₀.mapping.range.base.toNat, 3⟩,
          ⟨Address.ofNat (s₀.mapping.range.base.toNat + 8), 16777208⟩] := by
    rw [granted_allocate hfirst, granted_allocate hsecond, granted_allocate hthird]
    simp [granted, hthree]
  obtain ⟨s, hs⟩ : ∃ s, s₀.lived [.action .willing (.allocate 3),
      .action .willing (.allocate 18446744073709551615),
      .action .willing (.allocate 16777208)] = s := ⟨_, rfl⟩
  obtain ⟨-, -, hnext⟩ := allocate_of_new hnew hs hgranted
  -- the second region starts at position 8 and ends with the range
  have hborder : border s₀.mapping.range [⟨Address.ofNat s₀.mapping.range.base.toNat, 3⟩,
      ⟨Address.ofNat (s₀.mapping.range.base.toNat + 8), 16777208⟩] = memorySize := by
    have hfits := s₀.mapping.range.fits
    simp only [border, List.getLast?_cons_cons, List.getLast?_singleton, memorySize] at *
    rw [Address.toNat_ofNat (by omega)]
    omega
  rw [hborder] at hnext
  refine ⟨s₀, es, s, hnew, hs, ?_, ?_⟩
  · obtain ⟨k, hk, hlimit, start?, t, es', hrun, hiff, hstart, -, -⟩ := hnext 0
    obtain rfl := Nat.le_antisymm hlimit hk.1.1
    obtain ⟨start, rfl⟩ := Option.isSome_iff_exists.mp (hiff.mpr (Nat.le_refl _))
    exact ⟨start, t, es', hrun, hstart start rfl⟩
  · obtain ⟨k, hk, hlimit, start?, t, es', hrun, hiff, -, hrefused, -⟩ := hnext 1
    obtain rfl := Nat.le_antisymm hlimit hk.1.1
    obtain rfl : start? = none := by
      rw [← Option.not_isSome_iff_eq_none, hiff]
      omega
    obtain rfl := hrefused rfl
    exact ⟨es', hrun⟩

end DemandPaging.Memory
