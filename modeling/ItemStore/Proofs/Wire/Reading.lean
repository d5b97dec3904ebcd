import ItemStore.Proofs.Value.Shape
import ItemStore.Proofs.Wire.Number
import ItemStore.Wire.Decode

/-! Wire data that cannot be read.

What is wrong with wire data is wrong with the data: whichever way a reading fails, the fault is
none of those that tell a caller of a mistake of their own or of what the service decided. -/
namespace ItemStore.Wire

open Outcome

/-! ### Numbers in parts -/

theorem wholePart_fails (v : Value) : FailsAsData (wholePart v) := by
  have hbound (x : Except Fault Int) (hx : FailsAsData x) : FailsAsData (do
      let n ← x
      if -(Nat.pow 2 63 : Int) ≤ n && n < (Nat.pow 2 63 : Int) then return n
      else throw .outOfRange) :=
    .bind hx fun n _ => .ite (.pure n) (.error rfl)
  unfold wholePart
  split
  · exact hbound _ (.pure _)
  · exact hbound _ (.pure _)
  · exact hbound _ (.error rfl)

theorem signPart_fails (v : Value) : FailsAsData (signPart v) := by
  refine .bind (wholePart_fails v) fun n _ => ?_
  split
  · exact .pure _
  · exact .pure _
  · exact .error rfl

theorem digitPart_fails (v : Value) : FailsAsData (digitPart v) :=
  .bind (wholePart_fails v) fun _ _ => .ite (.pure _) (.error rfl)

theorem digitParts_fails (v : Value) : FailsAsData (digitParts v) := by
  unfold digitParts
  split
  · exact .mapM fun x _ => digitPart_fails x
  · exact .mapM fun x _ => digitPart_fails x
  · exact .error rfl

theorem lastPart_fails (v : Value) : FailsAsData (lastPart v) := by
  unfold lastPart
  split
  · exact .ok _
  · exact .ok _
  · exact .ok _
  · exact .bind (wholePart_fails _) fun _ _ => .pure _

theorem ofParts_fails (parts : List Value) :
    FailsAsData (ofParts parts) := by
  unfold ofParts
  split
  · exact .bind (signPart_fails _) fun _ _ => .bind (lastPart_fails _) fun _ _ =>
      .bind (digitParts_fails _) fun _ _ => .pure _
  · exact .error rfl

/-! ### Numbers, binary data and sets -/

theorem lift_fails (x : Except Decimal.Signal Decimal) :
    FailsAsData (decodeNumber.lift x) := by
  cases x with
  | error s => exact .error rfl
  | ok d => exact .ok _

theorem decodeNumber_fails (v : Value) : FailsAsData (decodeNumber v) := by
  unfold decodeNumber
  split
  · exact lift_fails _
  · exact .ok _
  · exact .bind (ofParts_fails _) fun _ _ => lift_fails _
  · exact .bind (ofParts_fails _) fun _ _ => lift_fails _
  · split
    · exact lift_fails _
    · exact .error rfl

theorem decodeBinary_fails (v : Value) : FailsAsData (decodeBinary v) := by
  unfold decodeBinary
  split
  · split
    · exact .error rfl
    · exact .ok _
  · exact .error rfl

/-- A set is read with no other faults than its members. -/
theorem decodeSet_fails {member : Value → Except Fault Value}
    (hmember : ∀ x, FailsAsData (member x)) (v : Value) :
    FailsAsData (decodeSet member v) := by
  refine .bind v.elements_fails.data fun xs _ =>
    .bind (.mapM fun x _ => ?_) fun _ _ => .pure _
  exact .bind (hmember x) fun y _ => .ite (.pure y) (.error rfl)

theorem shapeFault_isData (v : Value) : (shapeFault v).isData = true := by
  unfold shapeFault
  split <;> rfl

theorem tagFault_isData (k : Value) : (tagFault k).isData = true := by
  unfold tagFault
  split
  · rfl
  · next hf => exact k.shown_fails.data _ hf

/-! ### Values -/

mutual

theorem decode_fails : ∀ v : Value, FailsAsData (decode v)
  | .map ((k, v) :: _) => by
    rw [decode]
    split
    · exact .error (tagFault_isData k)
    · exact .ok _
    · exact .ok _
    · exact .ok _
    · exact decodeNumber_fails v
    · exact decodeBinary_fails v
    · exact decodeSet_fails decodeNumber_fails v
    · exact decodeSet_fails (fun x => .ok x) v
    · exact decodeSet_fails decodeBinary_fails v
    · exact decodeList_fails v
    · exact decodeMap_fails v
  | .map [] => .error (shapeFault_isData _)
  | .null => .error (shapeFault_isData _)
  | .bool _ => .error (shapeFault_isData _)
  | .int _ => .error (shapeFault_isData _)
  | .decimal _ => .error (shapeFault_isData _)
  | .float _ => .error (shapeFault_isData _)
  | .text _ => .error (shapeFault_isData _)
  | .torn _ => .error (shapeFault_isData _)
  | .bytes _ _ => .error (shapeFault_isData _)
  | .list _ => .error (shapeFault_isData _)
  | .tuple _ => .error (shapeFault_isData _)
  | .set _ _ => .error (shapeFault_isData _)
  | .date _ => .error (shapeFault_isData _)
  | .wildcard => .error (shapeFault_isData _)

theorem decodeList_fails : ∀ v : Value, FailsAsData (decodeList v)
  | v => by
    unfold decodeList
    split
    · exact .bind (decodeAll_fails _) fun _ _ => .pure _
    · exact .bind (decodeAll_fails _) fun _ _ => .pure _
    · exact .bind (decodeAll_fails _) fun _ _ => .pure _
    · exact .bind (decodeKeys_fails _) fun _ _ => .pure _
    · refine .bind (Value.elements_fails _).data fun xs _ => ?_
      split
      · exact .pure _
      · exact .error (shapeFault_isData _)

theorem decodeMap_fails : ∀ v : Value, FailsAsData (decodeMap v)
  | v => by
    unfold decodeMap
    split
    · exact .bind (decodeEntries_fails _) fun _ _ => .pure _
    · exact .error rfl

theorem decodeAll_fails : ∀ xs : List Value, FailsAsData (decodeAll xs)
  | [] => .ok _
  | x :: xs => by
    rw [decodeAll]
    exact .bind (decode_fails x) fun _ _ => .bind (decodeAll_fails xs) fun _ _ => .pure _

theorem decodeKeys_fails :
    ∀ es : List (Value × Value), FailsAsData (decodeKeys es)
  | [] => .ok _
  | (k, _) :: es => by
    rw [decodeKeys]
    exact .bind (decode_fails k) fun _ _ => .bind (decodeKeys_fails es) fun _ _ => .pure _

theorem decodeEntries_fails :
    ∀ es : List (Value × Value), FailsAsData (decodeEntries es)
  | [] => .ok _
  | (_, v) :: es => by
    rw [decodeEntries]
    exact .bind (decode_fails v) fun _ _ => .bind (decodeEntries_fails es) fun _ _ => .pure _

end

/-! ### Fields and items -/

theorem decodeFields_fails (fs : Fields) :
    FailsAsData (decodeFields fs) := by
  induction fs with
  | nil => exact .ok _
  | cons e fs ih =>
    rw [decodeFields]
    exact .bind (.bind (decode_fails e.2) fun _ _ => .pure _) fun _ _ =>
      .bind ih fun _ _ => .pure _

theorem decodeItem_fails (v : Value) : FailsAsData (decodeItem v) :=
  .bind v.fields_fails.data fun fs _ =>
    decodeFields_fails fs

end ItemStore.Wire
