import ItemStore.Proofs.Draws
import ItemStore.Proofs.Moment
import ItemStore.Proofs.Table.Alone
import ItemStore.Proofs.Table.Report

/-! What a run draws.

The identifiers and the stamps of a run are those that its steps drew, whatever the steps came to: a
step that fails after it drew has used up what it drew, and the next step goes on behind it. So no
identifier is drawn twice where the generator has no two alike, and stamps are in order where the
clock does not go back. What a write drew is what it sends and what it answers. -/
namespace ItemStore

open Outcome

/-! ### Sources -/

/-- Identifiers in sequence are all different. -/
theorem sequentialIds_injective (stem : String) : Function.Injective (sequentialIds stem) := by
  intro i j h
  exact Nat.succ.inj (Nat.repr_injective ((String.append_right_inj stem).mp h))

/-! ### How much an operation draws -/

/-- How many identifiers an operation may draw. -/
def Operation.newIds (schema : Schema) : Operation → Nat
  | .create _ id _ => schema.newIds id
  | _ => 0

namespace Table

variable {t : Table} {op : Operation} {s : Session}

theorem drawsAtMost_announce (context : Fields) :
    DrawsAtMost Progress.draws 0 0 (announce context) := fun _ => .refl ..

theorem drawsAtMost_draw {α : Type} {ids readings : Nat} {x : Drawing α}
    (hx : DrawsAtMost id ids readings x) : DrawsAtMost Progress.draws ids readings (draw x) :=
  fun p => hx p.draws

theorem drawsAtMost_stamped (t : Table) (write : RecordWrite) :
    DrawsAtMost Progress.draws (Lifecycle.newIds t.schema write) 1
      (draw (Lifecycle.stampWrite t.schema t.sources write)) :=
  drawsAtMost_draw (Lifecycle.drawsAtMost_stampWrite write)

/-- A preparation draws what its write draws, and nothing else. -/
theorem drawsAtMost_prepare (t : Table) (op : Operation) :
    DrawsAtMost Progress.draws (op.newIds t.schema) 1 (t.prepare op) := by
  have hnone {α : Type} {x : Preparing α} (h : DrawsAtMost Progress.draws 0 0 x) :
      DrawsAtMost Progress.draws 0 1 x := h.mono (Nat.le_refl _) (Nat.zero_le _)
  cases op with
  | get key params =>
    refine hnone (.later (.lift _) fun _ => .later (drawsAtMost_announce _) fun _ => ?_)
    exact .later (.lift _) fun _ => .later (.lift _) fun _ => .pure _
  | query params =>
    refine hnone (.later (.lift _) fun _ => .later (drawsAtMost_announce _) fun _ => ?_)
    exact .later (.lift _) fun _ => .pure _
  | scan params =>
    exact hnone (.later (drawsAtMost_announce _) fun _ => .later (.lift _) fun _ => .pure _)
  | create item id params =>
    refine .later (.lift _) fun _ => .first (t.drawsAtMost_stamped (.create item id)) fun _ => ?_
    refine .later (drawsAtMost_announce _) fun _ => .later (.lift _) fun _ => ?_
    exact .later (.lift _) fun _ => .pure _
  | replace key item params =>
    refine .later (.lift _) fun ks => .later (.lift _) fun _ => ?_
    refine .later (drawsAtMost_announce _) fun _ => ?_
    refine .first (t.drawsAtMost_stamped (.replace (.map ks) item)) fun _ => ?_
    exact .later (.lift _) fun _ => .later (.lift _) fun _ => .pure _
  | update key attributes params =>
    refine .later (.lift _) fun ks => .later (.lift _) fun _ => ?_
    refine .later (drawsAtMost_announce _) fun _ => ?_
    refine .first (t.drawsAtMost_stamped (.update (.map ks) attributes)) fun _ => ?_
    refine .later (.lift _) fun _ => .later (.lift _) fun _ => .later (.lift _) fun _ => ?_
    exact .later (.lift _) fun _ => .pure _
  | delete key params =>
    refine hnone (.later (.lift _) fun _ => .later (drawsAtMost_announce _) fun _ => ?_)
    exact .later (.lift _) fun _ => .later (.lift _) fun _ => .pure _
  | batchWrite requests account =>
    exact hnone (.later (drawsAtMost_announce _) fun _ => .later (.lift _) fun _ => .pure _)
  | listTables params => exact hnone (.later (.lift _) fun _ => .pure _)
  | createTable params => exact hnone (.later (.lift _) fun _ => .pure _)
  | deleteTable params => exact hnone (.later (.lift _) fun _ => .pure _)

/-- Nothing is drawn after the call. -/
theorem perform_draws (t : Table) (op : Operation) (s : Session) :
    (t.perform op s).2.draws = (t.prepare op ⟨s.draws, none⟩).2.draws := by
  rcases hp : t.prepare op ⟨s.draws, none⟩ with ⟨f | p, progress⟩
  · rw [perform_eq_of_error hp]
  · rw [perform_eq_of_ok hp]

theorem perform_within (t : Table) (op : Operation) (s : Session) :
    s.draws.Within (op.newIds t.schema) 1 (t.perform op s).2.draws := by
  rw [perform_draws]
  exact t.drawsAtMost_prepare op ⟨s.draws, none⟩

end Table

/-! ### What a step draws -/

namespace Step

variable (x : Step) (t : Table)

/-- The identifiers that were drawn in the step. -/
def identifiers : List String :=
  (List.range' x.before.draws.ids (x.after.draws.ids - x.before.draws.ids)).map t.sources.ids

/-- The stamps that were drawn in the step; a reading outside the calendar has none. -/
def stamps : List String :=
  (List.range' x.before.draws.readings
    (x.after.draws.readings - x.before.draws.readings)).filterMap
      fun n => (t.sources.clock n).bind Moment.timestamp?

variable {x t}

theorem identifiers_of_one (h : x.after.draws.ids = x.before.draws.ids + 1) :
    x.identifiers t = [t.sources.ids x.before.draws.ids] := by
  rw [identifiers, h, Nat.add_sub_cancel_left]
  rfl

theorem stamps_of_one {s : String} (h : x.after.draws.readings = x.before.draws.readings + 1)
    (hs : Lifecycle.NextStamp t.sources x.before.draws s) : x.stamps t = [s] := by
  rw [Lifecycle.NextStamp] at hs
  rw [stamps, h, Nat.add_sub_cancel_left, List.range'_one, List.filterMap_cons, hs]
  rfl

end Step

/-! ### Where a write puts it -/

/-- The operation writes a record that is there. -/
def Operation.rewrites : Operation → Bool
  | .replace .. => true
  | .update .. => true
  | _ => false

/-- Of the fields that the schema manages, a new record holds what the step drew: a fresh
identifier, if the caller gave none, and one and the same stamp. -/
structure Step.Marks (x : Step) (t : Table) (id : Value) (holds : String → String → Prop) :
    Prop where
  identifier : t.schema.managesId = true → id.isTruthy = false →
    ∃ i, x.identifiers t = [i] ∧ holds "id" i
  stamp : t.schema.managesCreated = true ∨ t.schema.managesUpdated = true →
    ∃ s, x.stamps t = [s] ∧ (t.schema.managesCreated = true → holds "created" s) ∧
      (t.schema.managesUpdated = true → holds "updated" s)

theorem Step.Marks.mono {x : Step} {t : Table} {id : Value} {holds holds' : String → String → Prop}
    (h : x.Marks t id holds) (hmono : ∀ name s, holds name s → holds' name s) :
    x.Marks t id holds' where
  identifier hmanages hfalsy := by
    obtain ⟨i, hi, hid⟩ := h.identifier hmanages hfalsy
    exact ⟨i, hi, hmono _ _ hid⟩
  stamp hmanages := by
    obtain ⟨s, hs, hcreated, hupdated⟩ := h.stamp hmanages
    exact ⟨s, hs, fun hm => hmono _ _ (hcreated hm), fun hm => hmono _ _ (hupdated hm)⟩

/-- What the step drew, and what it did with it: a new record has it in the request, whatever comes
of that, and in the answer, and a record that is written again has it in the answer. -/
structure Step.Spends (x : Step) (t : Table) : Prop where
  identifiers : (x.identifiers t).length ≤ x.operation.newIds t.schema
  stamps : (x.stamps t).length ≤ 1
  sent : ∀ item id params req, x.operation = .create item id params →
    t.Sends x.operation x.before req →
    x.Marks t id fun name s => Table.Puts req name (WireType.text.wrap (.text s))
  answered : ∀ (item id params : Value) (result : Fields), x.operation = .create item id params →
    x.answer = .ok (.value (.map result)) →
    x.Marks t id fun name s => result.get? name = some (.text s)
  rewritten : ∀ result : Fields, x.operation.rewrites = true →
    x.answer = .ok (.value (.map result)) → t.schema.managesUpdated = true →
    ∃ s, x.stamps t = [s] ∧ result.get? "updated" = some (.text s)

namespace Table

variable {t : Table} {op : Operation} {s : Session} {d : Draws} {p : Prepared} {q : Progress}

theorem prepare_create_draws {item id params : Value}
    (h : t.prepare (.create item id params) ⟨d, none⟩ = (.ok p, q)) :
    (t.schema.managesId = true → id.isTruthy = false →
      q.draws.ids = d.ids + 1 ∧ p.result.get? "id" = some (.text (t.sources.ids d.ids))) ∧
    (t.schema.managesCreated = true ∨ t.schema.managesUpdated = true →
      ∃ s, Lifecycle.NextStamp t.sources d s ∧ q.draws.readings = d.readings + 1 ∧
        (t.schema.managesCreated = true → p.result.get? "created" = some (.text s)) ∧
        (t.schema.managesUpdated = true → p.result.get? "updated" = some (.text s))) := by
  obtain ⟨fs, stamped, d', req, w, rfl, hstamped, -, -, rfl, rfl⟩ := prepare_create h
  obtain ⟨ids, stamps, r, hids, hstamps, rfl⟩ := Lifecycle.stampWrite_create hstamped
  obtain ⟨hreadings, hmanaged⟩ := Lifecycle.newId_ok hids
  obtain ⟨hkept, hdrawn⟩ := Lifecycle.newStamps_drawn hstamps
  constructor
  · intro hmanages hfalsy
    obtain ⟨hone, rfl⟩ := Lifecycle.newId_drawn hids hmanages hfalsy
    exact ⟨hkept.trans hone, Fields.get?_cons_self ..⟩
  · intro hmanages
    obtain ⟨s, hnext, hone, rfl⟩ := hdrawn hmanages
    rw [Lifecycle.NextStamp, hreadings] at hnext
    rw [hreadings] at hone
    refine ⟨s, hnext, hone, ?_, ?_⟩
    · intro hcreated
      rcases hmanaged with ⟨-, rfl⟩ | ⟨-, rfl⟩ <;>
        simp [hcreated, Fields.get?_cons, Value.text_same]
    · intro hupdated
      rcases hmanaged with ⟨-, rfl⟩ | ⟨-, rfl⟩ <;> cases t.schema.managesCreated <;>
        simp [hupdated, Fields.get?_cons, Value.text_same]

/-- What a new record is said to hold is what was drawn for it. -/
theorem marks_of_prepared {item id params : Value}
    (h : t.prepare (.create item id params) ⟨s.draws, none⟩ = (.ok p, q)) {answer} :
    Step.Marks ⟨.create item id params, s, answer, (t.perform (.create item id params) s).2⟩ t id
      fun name i => p.result.get? name = some (.text i) := by
  obtain ⟨hid, hstamp⟩ := prepare_create_draws h
  have hdraws : (t.perform (.create item id params) s).2.draws = q.draws := by
    rw [perform_draws, h]
  constructor
  · intro hmanages hfalsy
    obtain ⟨hone, hfound⟩ := hid hmanages hfalsy
    refine ⟨_, Step.identifiers_of_one ?_, hfound⟩
    show (t.perform _ s).2.draws.ids = _
    rw [hdraws, hone]
  · intro hmanages
    obtain ⟨i, hnext, hone, hfound⟩ := hstamp hmanages
    refine ⟨i, Step.stamps_of_one ?_ hnext, hfound⟩
    show (t.perform _ s).2.draws.readings = _
    rw [hdraws, hone]

/-- A record that is written again is said to hold the stamp that was drawn for it. -/
theorem rewritten_draws {result : Fields} (hop : op.rewrites = true)
    (h : (t.perform op s).1 = .ok (.value (.map result)))
    (hmanages : t.schema.managesUpdated = true) :
    ∃ i, Lifecycle.NextStamp t.sources s.draws i ∧
      (t.perform op s).2.draws.readings = s.draws.readings + 1 ∧
      result.get? "updated" = some (.text i) := by
  obtain ⟨p, q, response, hp, -, hanswer⟩ := sends_of_ok h
  have hdraws : (t.perform op s).2.draws = q.draws := by
    rw [perform_draws, hp]
  rw [hdraws]
  cases op with
  | replace key item params =>
    cases hanswer
    obtain ⟨ks, fs, stamped, d, req, w, -, rfl, hstamped, -, -, rfl, rfl⟩ := prepare_replace hp
    obtain ⟨managed, hfresh, rfl⟩ := Lifecycle.stampWrite_replace hstamped
    obtain ⟨i, hnext, hone, rfl⟩ := Lifecycle.freshStamp_drawn hfresh hmanages
    exact ⟨i, hnext, hone, Fields.get?_cons_self ..⟩
  | update key attributes params =>
    cases hanswer
    obtain ⟨ks, fs, stamped, d, u, passed, req, w, -, rfl, hstamped, -, -, -, -, rfl, rfl⟩ :=
      prepare_update hp
    obtain ⟨managed, hfresh, rfl⟩ := Lifecycle.stampWrite_update hstamped
    obtain ⟨i, hnext, hone, rfl⟩ := Lifecycle.freshStamp_drawn hfresh hmanages
    refine ⟨i, hnext, hone, ?_⟩
    show Fields.get? (Fields.put [(.text "updated", .text i)] "id" _) "updated" = _
    rw [Fields.get?_put, if_neg (by decide), Fields.get?_cons_self]
  | _ => cases hop

theorem perform_spends (t : Table) (op : Operation) (s : Session) :
    Step.Spends ⟨op, s, (t.perform op s).1, (t.perform op s).2⟩ t := by
  have hwithin := t.perform_within op s
  refine ⟨?_, ?_, ?_, ?_, ?_⟩
  · have hids := hwithin.le_ids
    rw [Step.identifiers, List.length_map, List.length_range']
    show (t.perform op s).2.draws.ids - s.draws.ids ≤ op.newIds t.schema
    omega
  · refine (List.length_filterMap_le ..).trans ?_
    have hreadings := hwithin.le_readings
    rw [List.length_range']
    show (t.perform op s).2.draws.readings - s.draws.readings ≤ 1
    omega
  · rintro item id params req rfl hsent
    obtain ⟨p, q, hp, rfl, -⟩ := sends_iff.mp hsent
    refine (marks_of_prepared hp).mono fun name i hfound => ?_
    obtain ⟨w, hw, hputs⟩ := prepare_create_puts hp hfound
    cases hw
    exact hputs
  · rintro item id params result rfl hanswer
    obtain ⟨p, q, response, hp, -, hconclude⟩ := sends_of_ok hanswer
    cases hconclude
    exact marks_of_prepared hp
  · intro result hop hanswer hmanages
    obtain ⟨i, hnext, hone, hfound⟩ := rewritten_draws hop hanswer hmanages
    exact ⟨i, Step.stamps_of_one hone hnext, hfound⟩

/-! ### A run -/

/-- What a counter passes in the steps of a run is one stretch. -/
theorem flatMap_trace (t : Table) (count : Session → Nat)
    (hcount : ∀ op s, count s ≤ count (t.perform op s).2) (ops : List Operation) (s : Session) :
    ∃ n, (t.trace ops s).flatMap (fun x =>
      List.range' (count x.before) (count x.after - count x.before)) =
        List.range' (count s) n := by
  induction ops generalizing s with
  | nil => exact ⟨0, rfl⟩
  | cons op ops ih =>
    obtain ⟨n, hn⟩ := ih (t.perform op s).2
    refine ⟨count (t.perform op s).2 - count s + n, ?_⟩
    rw [trace, List.flatMap_cons, hn, ← List.range'_append_1]
    show _ ++ List.range' (count (t.perform op s).2) n = _
    rw [Nat.add_sub_cancel' (hcount op s)]

/-- Where no two identifiers of the generator are alike, none is drawn twice. -/
theorem nodup_identifiers (hids : Function.Injective t.sources.ids) (ops : List Operation)
    (s : Session) : ((t.trace ops s).flatMap fun x => x.identifiers t).Nodup := by
  obtain ⟨n, hn⟩ := flatMap_trace t (fun s => s.draws.ids)
    (fun op s => (t.perform_within op s).ids_le) ops s
  have hall : ((t.trace ops s).flatMap fun x => x.identifiers t) =
      (List.range' s.draws.ids n).map t.sources.ids := by
    rw [← hn, List.map_flatMap]
    rfl
  rw [hall]
  exact (List.nodup_range' 1).map hids

/-- Where a later reading has no smaller timestamp, stamps are drawn in order. -/
theorem sorted_stamps
    (hclock : ∀ i j s s', i ≤ j → (t.sources.clock i).bind Moment.timestamp? = some s →
      (t.sources.clock j).bind Moment.timestamp? = some s' → s ≤ s')
    (ops : List Operation) (s : Session) :
    ((t.trace ops s).flatMap fun x => x.stamps t).Pairwise (· ≤ ·) := by
  obtain ⟨n, hn⟩ := flatMap_trace t (fun s => s.draws.readings)
    (fun op s => (t.perform_within op s).readings_le) ops s
  have hall : ((t.trace ops s).flatMap fun x => x.stamps t) =
      (List.range' s.draws.readings n).filterMap
        fun n => (t.sources.clock n).bind Moment.timestamp? := by
    rw [← hn, List.filterMap_flatMap]
    rfl
  rw [hall]
  refine (List.pairwise_lt_range' 1).filterMap _ fun i j hij a ha b hb => ?_
  exact hclock i j a b hij.le ha hb

/-- **What a run draws.** Let a handle take its stamps from a clock whose step is not below zero and
its identifiers from a sequence behind one stem, and let any operations run, with whatever outcome.
Then no identifier is drawn twice, not even one that a step drew before it failed. The stamps are
drawn in the order of their texts if the clock advances, as it does if it has one offset. A new
record holds the identifier and the one stamp that its step drew, where the schema manages them: in
the request, and in the answer if there is one. -/
theorem run_draws {clock : Clock} {stem : String}
    (hsources : t.sources = ⟨clock.reading?, sequentialIds stem⟩) (hstep : 0 ≤ clock.step)
    (ops : List Operation) (s : Session) :
    ((t.trace ops s).flatMap fun x => x.identifiers t).Nodup ∧
      (clock.HasOneOffset → clock.Advances) ∧
      (clock.Advances → ((t.trace ops s).flatMap fun x => x.stamps t).Pairwise (· ≤ ·)) ∧
      ∀ x ∈ t.trace ops s, x.Spends t := by
  refine ⟨nodup_identifiers ?_ ops s, fun hone => hone.advances hstep,
    fun hadvances => sorted_stamps ?_ ops s, forall_trace t.perform_spends ops s⟩
  · rw [hsources]
    exact sequentialIds_injective stem
  · rw [hsources]
    exact fun i j a b hij ha hb => hadvances.timestamp?_le hstep hij ha hb

/-- A new record that the service fails, one whose part has no wire form, and one under an
identifier of the caller, by a clock that shows the last second of a day two hours east. -/
theorem run_draws_failures :
    let clock : Clock := ⟨86399999000, some fun _ => 7200, 1000⟩
    let t : Table :=
      ⟨"records", ⟨true, true, true⟩, ⟨clock.reading?, sequentialIds "id-"⟩, "account"⟩
    let failure : ServiceError := ⟨"PutItem", some (Text.points "Throttled"), none, none⟩
    let ops : List Operation := [.create (.map []) .null .null,
      .create (.map [(.text "part", .wildcard)]) .null .null, .create (.map []) (.text "k") .null]
    let s := Session.start
      [⟨"put_item", .null, .failure failure⟩, ⟨"put_item", .null, .response .null⟩]
    t.sources = ⟨clock.reading?, sequentialIds "id-"⟩ ∧ 0 ≤ clock.step ∧ clock.Advances ∧
      ((t.trace ops s).flatMap fun x => x.identifiers t) = ["id-1", "id-2"] ∧
      ((t.trace ops s).flatMap fun x => x.stamps t) =
        ["0001-01-01T21:59:59.999Z", "0001-01-01T22:00:00.000Z", "0001-01-01T22:00:00.001Z"] ∧
      ((t.trace ops s).flatMap fun x => x.identifiers t).Nodup ∧
      ((t.trace ops s).flatMap fun x => x.stamps t).Pairwise (· ≤ ·) ∧
      ∀ x ∈ t.trace ops s, x.Spends t := by
  intro clock t failure ops s
  have hstep : 0 ≤ clock.step := by decide
  have hone : clock.HasOneOffset := fun _ _ => rfl
  obtain ⟨hids, hadvances, hstamps, hspends⟩ := @run_draws t clock "id-" rfl hstep ops s
  refine ⟨rfl, hstep, hadvances hone, ?_, ?_, hids, hstamps (hadvances hone), hspends⟩
  · decide +kernel
  · decide +kernel

/-- Stamps are not in order for every clock whose step is not below zero. In a zone that was five
hours behind and is four hours behind from three o'clock on, a clock that goes on by half an hour at
each reading shows 01:45, 02:15, 02:45 and 03:15, and the last of these is half an hour earlier than
the one before it. -/
theorem stamps_out_of_order :
    ¬ ∀ (t : Table) (clock : Clock) (stem : String) (ops : List Operation) (s : Session),
      t.sources = ⟨clock.reading?, sequentialIds stem⟩ → 0 ≤ clock.step →
      ((t.trace ops s).flatMap fun x => x.stamps t).Pairwise (· ≤ ·) := by
  intro h
  let time (date : Date) (minute : Nat) : Int :=
    (date.dayNumber * Moment.perDay + minute * 60 * Moment.perSecond : Nat)
  let summer (shown : Int) : Bool :=
    time ⟨2024, 3, 10⟩ 180 ≤ shown && shown < time ⟨2024, 11, 3⟩ 120
  let zone : Zone := fun shown => if summer shown then -14400 else -18000
  let clock : Clock := ⟨time ⟨2024, 3, 10⟩ 105, some zone, 1800000000⟩
  let t : Table := ⟨"records", ⟨false, true, true⟩, ⟨clock.reading?, sequentialIds ""⟩, "account"⟩
  let ops : List Operation := List.replicate 4 (.create (.map []) .null .null)
  let s := Session.start (List.replicate 4 ⟨"put_item", .null, .response .null⟩)
  have hstamps : ((t.trace ops s).flatMap fun x => x.stamps t) =
      ["2024-03-10T06:45:00.000Z", "2024-03-10T07:15:00.000Z", "2024-03-10T07:45:00.000Z",
        "2024-03-10T07:15:00.000Z"] := by decide +kernel
  have hsorted := h t clock "" ops s rfl (by decide)
  rw [hstamps] at hsorted
  revert hsorted
  decide

end Table

end ItemStore
