import Mathlib.Data.List.Infix
import DemandPaging.Proofs.Log.StackBuffer

/-!
# What reaches a descriptor

Text on its way to a descriptor is cut up twice: the line buffer cuts it where it is full, and the
descriptor stores as many bytes of a call as it likes. Neither shows in what arrives: the text as a
whole if the writer reports success, and otherwise a part from its start that lacks something at the
end.

A writer that comes to its end makes finitely many calls, so that the answers it gets are always
those of some descriptor here.
-/

namespace DemandPaging.Log

/-- What becomes of the text `goal`: a part from its start was received after what had been received
`before`. The rest is `kept` if the writer succeeded; if it failed there is a rest, and it is lost. -/
def Conveys (goal before : List UInt8) (ok : Bool) (after kept : List UInt8) : Prop :=
  ∃ sent rest, sent ++ rest = goal ∧ after = before ++ sent ∧ if ok then rest = kept else rest ≠ []

namespace Conveys

variable {goal before mid after rest kept : List UInt8} {ok : Bool}

/-- Nothing is sent yet. -/
theorem keep (goal before : List UInt8) : Conveys goal before true before goal :=
  ⟨[], goal, rfl, (List.append_nil _).symm, rfl⟩

/-- Where there is more to write, there is more to keep. -/
theorem append (h : Conveys goal before ok after kept) (more : List UInt8) :
    Conveys (goal ++ more) before ok after (kept ++ more) := by
  obtain ⟨sent, rest, rfl, hafter, hrest⟩ := h
  refine ⟨sent, rest ++ more, (List.append_assoc ..).symm, hafter, ?_⟩
  cases ok with
  | true => exact congrArg (· ++ more) hrest
  | false => exact fun hnil => hrest (List.append_eq_nil_iff.mp hnil).1

/-- After a success what was kept can be sent. -/
theorem trans (h : Conveys goal before true mid rest) (h' : Conveys rest mid ok after kept) :
    Conveys goal before ok after kept := by
  obtain ⟨sent, rest, rfl, rfl, rfl⟩ := h
  obtain ⟨sent', rest', rfl, rfl, hrest'⟩ := h'
  exact ⟨sent ++ sent', rest', List.append_assoc .., List.append_assoc .., hrest'⟩

/-- After a failure it does not matter what is kept. -/
theorem lost (h : Conveys goal before false after kept) (kept' : List UInt8) :
    Conveys goal before false after kept' := h

end Conveys

/-- The answer neither interrupts a call with `n` bytes nor cuts it short: the call stores all of
them, or it fails. -/
def Reply.Whole (n : Nat) : Reply → Prop
  | .interrupted => False
  | .stored extra => n ≤ extra + 1
  | .failed => True

namespace Descriptor

theorem received_receive (d : Descriptor) (bytes : List UInt8) :
    (d.receive bytes).received = d.received ++ bytes := by
  simp only [received, receive, List.flatten_append, List.flatten_singleton]

/-- However the calls are answered, bytes arrive in order and none of them twice. -/
theorem conveys_writeWith (replies : List Reply) (bytes : List UInt8) (d : Descriptor) :
    Conveys bytes d.received (writeWith replies bytes d).1
      (writeWith replies bytes d).2.received [] := by
  have hnone (d : Descriptor) (b : UInt8) (bytes : List UInt8) :
      Conveys (b :: bytes) d.received false d.received [] :=
    ⟨[], b :: bytes, rfl, (List.append_nil _).symm, List.cons_ne_nil b bytes⟩
  fun_induction writeWith replies bytes d with
  | case1 replies d => exact .keep [] d.received
  | case2 b bytes d hopen => exact ⟨b :: bytes, [], List.append_nil _, received_receive .., rfl⟩
  | case3 b bytes d hopen => exact hnone d b bytes
  | case4 replies b bytes d ih => exact ih
  | case5 extra replies b bytes d ih =>
    -- The call stored the start of the bytes, and the loop goes on with the others.
    have hstored : Conveys (b :: bytes.take extra) d.received true
        (d.called.receive (b :: bytes.take extra)).received [] :=
      ⟨b :: bytes.take extra, [], List.append_nil _, received_receive .., rfl⟩
    have hall := (hstored.append (bytes.drop extra)).trans ih
    rwa [List.cons_append, List.take_append_drop] at hall
  | case6 replies b bytes d => exact hnone d b bytes

theorem conveys_write (d : Descriptor) (bytes : List UInt8) :
    Conveys bytes d.received (d.write bytes).1 (d.write bytes).2.received [] :=
  conveys_writeWith d.replies bytes d

theorem calls_writeWith {replies : List Reply} {bytes : List UInt8} (hbytes : bytes ≠ [])
    (hwhole : ∀ r ∈ replies.head?, r.Whole bytes.length) (d : Descriptor) :
    (writeWith replies bytes d).2.calls = d.calls + 1 := by
  cases bytes with
  | nil => exact absurd rfl hbytes
  | cons b bytes =>
    match replies, hwhole with
    | [], _ =>
      rw [writeWith]
      split <;> rfl
    | .interrupted :: replies, hwhole => exact (hwhole .interrupted rfl).elim
    | .stored extra :: replies, hwhole =>
      have hall : bytes.length ≤ extra := Nat.le_of_succ_le_succ (hwhole (.stored extra) rfl)
      rw [writeWith, List.drop_of_length_le hall, writeWith]
      rfl
    | .failed :: replies, _ => rfl

end Descriptor

namespace LineBuffer

/-- What a write into a buffer can come to. -/
inductive Writes (b : LineBuffer) (bytes : List UInt8) : Bool × LineBuffer → Prop where
  /-- There is room behind what was collected. -/
  | kept (hroom : b.pending.length + bytes.length ≤ lineCapacity) :
      b.Writes bytes (true, { b with pending := b.pending ++ bytes })
  /-- What was collected is lost, and the rest is not tried. -/
  | lost {d : Descriptor} (hflush : b.sink.write b.pending = (false, d)) :
      b.Writes bytes (false, ⟨d, []⟩)
  /-- What was collected is sent off, and there is room then. -/
  | fresh {d : Descriptor} (hflush : b.sink.write b.pending = (true, d))
      (hroom : bytes.length ≤ lineCapacity) : b.Writes bytes (true, ⟨d, bytes⟩)
  /-- What was collected is sent off, and the rest goes past the buffer. -/
  | past {d : Descriptor} (hflush : b.sink.write b.pending = (true, d))
      (hlong : lineCapacity < bytes.length) :
      b.Writes bytes ((d.write bytes).1, ⟨(d.write bytes).2, []⟩)

theorem writes_write (b : LineBuffer) (bytes : List UInt8) : b.Writes bytes (b.write bytes) := by
  unfold write flush
  by_cases hroom : lineCapacity < b.pending.length + bytes.length
  · rw [if_pos hroom]
    cases hflush : b.sink.write b.pending with | mk ok d =>
    cases ok with
    | false => exact .lost hflush
    | true =>
      by_cases hlong : lineCapacity < bytes.length
      · simp only [if_pos hlong]
        exact .past hflush hlong
      · simp only [if_neg hlong]
        exact .fresh hflush (Nat.le_of_not_lt hlong)
  · rw [if_neg hroom]
    exact .kept (Nat.le_of_not_lt hroom)

/-- A buffer puts what it is given behind what it has collected. -/
theorem conveys_write (b : LineBuffer) (bytes : List UInt8) :
    Conveys (b.pending ++ bytes) b.sink.received (b.write bytes).1 (b.write bytes).2.sink.received
      (b.write bytes).2.pending := by
  have hsent := b.sink.conveys_write b.pending
  have hwrites := b.writes_write bytes
  generalize b.write bytes = r at hwrites ⊢
  cases hwrites with
  | kept hroom => exact .keep ..
  | lost hflush =>
    rw [hflush] at hsent
    exact (hsent.append bytes).lost []
  | @fresh d hflush hroom =>
    rw [hflush] at hsent
    exact hsent.append bytes
  | @past d hflush hlong =>
    rw [hflush] at hsent
    exact (hsent.append bytes).trans (d.conveys_write bytes)

/-- A buffer never collects more than it has room for. -/
theorem length_pending_write (b : LineBuffer) (bytes : List UInt8) :
    (b.write bytes).2.pending.length ≤ lineCapacity := by
  have hwrites := b.writes_write bytes
  generalize b.write bytes = r at hwrites ⊢
  cases hwrites with
  | kept hroom => exact (List.length_append ..).trans_le hroom
  | lost hflush => exact Nat.zero_le _
  | fresh hflush hroom => exact hroom
  | past hflush hlong => exact Nat.zero_le _

/-! ## Fragments one after the other -/

theorem conveys_writeEach (fragments : List (List UInt8)) (b : LineBuffer) :
    Conveys (b.pending ++ fragments.flatten) b.sink.received (writeEach fragments b).1
      (writeEach fragments b).2.sink.received (writeEach fragments b).2.pending := by
  induction fragments generalizing b with
  | nil =>
    rw [List.flatten_nil, List.append_nil]
    exact .keep ..
  | cons bytes fragments ih =>
    have hwrite := b.conveys_write bytes
    rw [writeEach, List.flatten_cons, ← List.append_assoc]
    cases hb : b.write bytes with | mk ok b' =>
    rw [hb] at hwrite
    cases ok with
    | false => exact (hwrite.append fragments.flatten).lost _
    | true => exact (hwrite.append fragments.flatten).trans (ih b')

theorem length_pending_writeEach (fragments : List (List UInt8)) {b : LineBuffer}
    (h : b.pending.length ≤ lineCapacity) :
    (writeEach fragments b).2.pending.length ≤ lineCapacity := by
  induction fragments generalizing b with
  | nil => exact h
  | cons bytes fragments ih =>
    have hwrite := b.length_pending_write bytes
    rw [writeEach]
    cases hb : b.write bytes with | mk ok b' =>
    rw [hb] at hwrite
    cases ok with
    | false => exact hwrite
    | true => exact ih hwrite

/-- As long as everything fits, nothing is sent off. -/
theorem writeEach_of_fits (fragments : List (List UInt8)) {b : LineBuffer}
    (h : b.pending.length + fragments.flatten.length ≤ lineCapacity) :
    writeEach fragments b = (true, { b with pending := b.pending ++ fragments.flatten }) := by
  induction fragments generalizing b with
  | nil => simp only [writeEach, List.flatten_nil, List.append_nil]
  | cons bytes fragments ih =>
    rw [List.flatten_cons, List.length_append] at h
    have hwrite : b.write bytes = (true, { b with pending := b.pending ++ bytes }) := by
      rw [write, if_neg (by omega)]
    rw [writeEach, hwrite, List.flatten_cons, ← List.append_assoc]
    refine ih ?_
    rw [List.length_append]
    omega

end LineBuffer

namespace Descriptor

/-- Whatever the fragments and however the calls are answered, the text arrives. -/
theorem conveys_writeLine (d : Descriptor) (fragments : List (List UInt8)) :
    Conveys fragments.flatten d.received (d.writeLine fragments).1
      (d.writeLine fragments).2.received [] := by
  have heach := LineBuffer.conveys_writeEach fragments { sink := d }
  rw [List.nil_append] at heach
  rw [writeLine]
  cases hb : LineBuffer.writeEach fragments { sink := d } with | mk ok b =>
  rw [hb] at heach
  cases ok with
  | true => exact heach.trans (b.sink.conveys_write b.pending)
  | false => exact heach.lost []

/-- A short line reaches the descriptor in one call, unless that call is interrupted or cut short. -/
theorem calls_writeLine {fragments : List (List UInt8)} (hsome : 1 ≤ fragments.flatten.length)
    (hshort : fragments.flatten.length ≤ lineCapacity) {d : Descriptor}
    (hwhole : ∀ r ∈ d.replies.head?, r.Whole fragments.flatten.length) :
    (d.writeLine fragments).2.calls = d.calls + 1 := by
  have heach := LineBuffer.writeEach_of_fits fragments (b := { sink := d })
    ((Nat.zero_add _).trans_le hshort)
  rw [writeLine, heach]
  exact calls_writeWith (List.ne_nil_of_length_pos hsome) hwhole d

/-- Text is neither lost nor repeated nor put out of order, whatever the fragments and however the
calls are answered: after a success all of it was received, after a failure a part from its start
that lacks something. Meanwhile no more bytes are collected than there is room for, and no slice
reaches outside of its array. A short line takes one call, unless that call is interrupted or cut
short. -/
theorem writeLine_delivers (d : Descriptor) (fragments : List (List UInt8)) :
    ((d.writeLine fragments).1 = true →
      (d.writeLine fragments).2.received = d.received ++ fragments.flatten) ∧
    ((d.writeLine fragments).1 = false → ∃ sent, sent <+: fragments.flatten ∧
      sent ≠ fragments.flatten ∧ (d.writeLine fragments).2.received = d.received ++ sent) ∧
    (∀ k, (LineBuffer.writeEach (fragments.take k) { sink := d }).2.pending.length ≤ lineCapacity) ∧
    d.writeLine? fragments = some (d.writeLine fragments) ∧
    (1 ≤ fragments.flatten.length → fragments.flatten.length ≤ lineCapacity →
      (∀ r ∈ d.replies.head?, r.Whole fragments.flatten.length) →
      (d.writeLine fragments).2.calls = d.calls + 1) := by
  obtain ⟨sent, rest, hsplit, hreceived, hrest⟩ := d.conveys_writeLine fragments
  refine ⟨fun hok => ?_, fun hfail => ?_,
    fun k => LineBuffer.length_pending_writeEach _ (Nat.zero_le _), d.writeLine?_eq fragments,
    fun hsome hshort hwhole => calls_writeLine hsome hshort hwhole⟩
  · rw [hok] at hrest
    have hnil : rest = [] := hrest
    rw [hreceived, ← hsplit, hnil, List.append_nil]
  · rw [hfail] at hrest
    have hsome : rest ≠ [] := hrest
    refine ⟨sent, ⟨rest, hsplit⟩, fun hsame => hsome ?_, hreceived⟩
    rwa [← hsplit, List.self_eq_append_right] at hsame

/-- Three bytes in two fragments: one call stores them, or a second one fails after the first byte. -/
theorem writeLine_delivers_three_bytes :
    let d : Descriptor := { replies := [.stored 2] }
    let d' : Descriptor := { replies := [.stored 0, .interrupted, .failed] }
    ((d.writeLine [[97, 98], [99]]).1 = true ∧ (d.writeLine [[97, 98], [99]]).2.received = [97, 98, 99] ∧
      (d.writeLine [[97, 98], [99]]).2.calls = 1) ∧
    (d'.writeLine [[97, 98], [99]]).1 = false ∧
      ∃ sent, sent <+: [97, 98, 99] ∧ sent ≠ [97, 98, 99] ∧
        (d'.writeLine [[97, 98], [99]]).2.received = sent := by
  have hok : (writeLine { replies := [.stored 2] } [[97, 98], [99]]).1 = true := by decide
  have hfail : (writeLine { replies := [.stored 0, .interrupted, .failed] } [[97, 98], [99]]).1 = false := by
    decide
  have hwhole : ∀ r ∈ [Reply.stored 2].head?, r.Whole 3 := by
    rintro _ ⟨⟩
    exact Nat.le_refl 3
  obtain ⟨hall, -, -, -, hcalls⟩ := writeLine_delivers { replies := [.stored 2] } [[97, 98], [99]]
  obtain ⟨-, hpart, -⟩ :=
    writeLine_delivers { replies := [.stored 0, .interrupted, .failed] } [[97, 98], [99]]
  exact ⟨⟨hok, hall hok, hcalls (by decide) (by decide) hwhole⟩, hfail, hpart hfail⟩

end Descriptor

end DemandPaging.Log
