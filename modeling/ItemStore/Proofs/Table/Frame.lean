import ItemStore.Proofs.Requests
import ItemStore.Proofs.Table.Callable

/-! What a request keeps of its parameters.

The request of an operation on items is the parameters of the caller with a few of them put into
another form and a few more written over them. Each step that builds it names the parameters that
it may touch, so the request of the whole is known under every other key: `request_frame` says
which those are for each operation, and what the request holds whatever the caller passed. -/
namespace ItemStore

open Outcome

/-! ### Steps that touch a few parameters -/

/-- The second request is the first with parameters of the one list put into another form if they
are there, and with parameters of the other list written. -/
structure Fields.Keeps (encoded written : List String) (req req' : Fields) : Prop where
  unchanged : ∀ k, (∀ n ∈ encoded ++ written, k ≠ .text n) → req'.getKey? k = req.getKey? k
  absent : ∀ k, (∀ n ∈ written, k ≠ .text n) → req.getKey? k = none → req'.getKey? k = none

namespace Fields.Keeps

variable {encoded written : List String} {req mid req' : Fields} {name : String}

theorem refl (encoded written : List String) (req : Fields) : Keeps encoded written req req :=
  ⟨fun _ _ => rfl, fun _ _ h => h⟩

theorem trans (h : Keeps encoded written req mid) (h' : Keeps encoded written mid req') :
    Keeps encoded written req req' where
  unchanged k hk := (h'.unchanged k hk).trans (h.unchanged k hk)
  absent k hk hnone := h'.absent k hk (h.absent k hk hnone)

theorem put (hname : name ∈ written) (v : Value) :
    Keeps encoded written req (req.put name v) where
  unchanged k hk := by
    rw [Fields.put, getKey?_put rfl, if_neg (hk name (List.mem_append_right _ hname)).symm]
  absent k hk hnone := by
    rw [Fields.put, getKey?_put rfl, if_neg (hk name hname).symm, hnone]

/-- A parameter that is there is put into another form. -/
theorem rewrite (hname : name ∈ encoded) (hthere : req.has name = true) (v : Value) :
    Keeps encoded written req (req.put name v) where
  unchanged k hk := by
    rw [Fields.put, getKey?_put rfl, if_neg (hk name (List.mem_append_left _ hname)).symm]
  absent k hk hnone := by
    have hne : (.text name : Value) ≠ k := by
      intro h
      rw [has, hasKey_eq_isSome, h, hnone] at hthere
      cases hthere
    rw [Fields.put, getKey?_put rfl, if_neg hne, hnone]

theorem erase (hname : name ∈ encoded ++ written) : Keeps encoded written req (req.erase name) where
  unchanged k hk := by
    rw [Fields.erase, getKey?_erase rfl, if_neg (hk name hname).symm]
  absent k hk hnone := by
    rw [Fields.erase, getKey?_erase rfl, hnone, ite_self]

end Fields.Keeps

open Fields (Keeps)

namespace ReadRequest

variable {encoded written : List String} {req req' : Fields}

theorem keeps_encodeParam {name : String} {encode : Value → Except Fault Value}
    (hname : name ∈ encoded) (h : encodeParam name encode req = .ok req') :
    Keeps encoded written req req' := by
  rw [encodeParam] at h
  split at h
  · cases h
    exact .refl _ _ _
  · next v hv =>
    obtain ⟨w, -, hw⟩ := bind_ok.mp h
    cases hw
    refine .rewrite hname ?_ w
    -- A parameter that is not there counts as null, which is falsy.
    rw [Fields.has_eq_isSome]
    cases hget : req.get? name with
    | some v => rfl
    | none =>
      rw [Fields.getD, hget] at hv
      cases hv

theorem keeps_spelled (hprojection : "ProjectionExpression" ∈ encoded)
    (hnames : "ExpressionAttributeNames" ∈ written) (h : spelled req = .ok req') :
    Keeps encoded written req req' := by
  unfold spelled at h
  split at h
  · next hthere =>
    rw [Projection.spellOut, Amendment.result_checked] at h
    obtain ⟨found, -, rfl⟩ := map_ok.mp h
    unfold Projection.write
    split
    · exact .erase (List.mem_append_left _ hprojection)
    · exact (Keeps.rewrite hprojection hthere _).trans (.put hnames _)
  · cases h
    exact .refl _ _ _

/-- The parameters of a read that are put into another form. -/
def encodedParams : List String :=
  ["ProjectionExpression", "ExpressionAttributeValues", "ExclusiveStartKey"]

theorem keeps_build {params : Value} (hnames : "ExpressionAttributeNames" ∈ written)
    (hpassed : params.toFieldsOrEmpty = .ok req) (h : build params = .ok req') :
    Keeps encodedParams written req req' := by
  rw [build_eq, hpassed] at h
  simp only [ok_bind, bind_ok] at h
  obtain ⟨req₁, hspelled, req₂, hvalues, hstart⟩ := h
  have h₁ : Keeps encodedParams written req req₁ := keeps_spelled (by decide) hnames hspelled
  have h₂ : Keeps encodedParams written req₁ req₂ := keeps_encodeParam (by decide) hvalues
  exact (h₁.trans h₂).trans (keeps_encodeParam (by decide) hstart)

end ReadRequest

/-- The parameters that an update writes. -/
def Update.writtenParams : List String :=
  ["UpdateExpression", "ExpressionAttributeNames", "ExpressionAttributeValues"]

theorem Update.keeps_attach {u : Update} {encoded written : List String} {req req' : Fields}
    (hwrites : ∀ n ∈ writtenParams, n ∈ written) (h : u.attach.result req = .ok req') :
    Keeps encoded written req req' := by
  rw [attach, Amendment.result_checked] at h
  obtain ⟨⟨names, values⟩, -, rfl⟩ := map_ok.mp h
  have hwritten : Keeps encoded written req ((req.put "UpdateExpression" (.text u.expression)).put
      "ExpressionAttributeNames" (.map names)) :=
    .trans (.put (hwrites _ (by decide)) _) (.put (hwrites _ (by decide)) _)
  rw [write]
  by_cases hempty : values.isEmpty = true
  · rw [if_pos hempty]
    exact hwritten.trans (.erase (List.mem_append_right _ (hwrites _ (by decide))))
  · rw [if_neg hempty]
    exact hwritten.trans (.put (hwrites _ (by decide)) _)

namespace Table

variable {t : Table} {encoded written : List String} {req req' : Fields}

theorem keeps_conditionParams {params : Value}
    (hvalues : "ExpressionAttributeValues" ∈ encoded)
    (hpassed : params.toFieldsOrEmpty = .ok req) (h : conditionParams params = .ok req') :
    Keeps encoded written req req' := by
  obtain ⟨free, hfree, hencode⟩ := bind_ok.mp h
  have hsame := freeParams_ok hfree
  rw [hpassed] at hsame
  cases hsame
  exact ReadRequest.keeps_encodeParam hvalues hencode

/-- The parameters that every request for items ends with. -/
def extendedParams : List String := ["TableName", "ReturnConsumedCapacity"]

theorem keeps_extend (hwrites : ∀ n ∈ extendedParams, n ∈ written) :
    Keeps encoded written req (t.extend req) :=
  .trans (.put (hwrites _ (by decide)) _) (.put (hwrites _ (by decide)) _)

end Table

/-! ### Operations on items -/

namespace Operation

/-- Whether the operation reads or writes items under parameters of the caller. -/
def isOnItems : Operation → Bool
  | .batchWrite .. => false
  | .listTables .. => false
  | .createTable .. => false
  | .deleteTable .. => false
  | _ => true

/-- The parameters that the operation puts into another form. -/
def encodedParams : Operation → List String
  | .get .. => ReadRequest.encodedParams
  | .query .. => ReadRequest.encodedParams
  | .scan .. => ReadRequest.encodedParams
  | .create .. => ["ExpressionAttributeValues"]
  | .replace .. => ["ExpressionAttributeValues"]
  | .delete .. => ["ExpressionAttributeValues"]
  | _ => []

/-- The parameters that the operation writes. -/
def writtenParams : Operation → List String
  | .get .. => Table.extendedParams ++ ["ExpressionAttributeNames", "Key"]
  | .query .. => Table.extendedParams ++ ["ExpressionAttributeNames"]
  | .scan .. => Table.extendedParams ++ ["ExpressionAttributeNames"]
  | .create .. => Table.extendedParams ++ ["Item"]
  | .replace .. => Table.extendedParams ++ ["Item"]
  | .update .. => Table.extendedParams ++ (Update.writtenParams ++ ["Key"])
  | .delete .. => Table.extendedParams ++ ["Key"]
  | _ => []

end Operation

namespace Table

/-- The request names the record that the operation is about: by its key if that is valid, or by
the record that is stored. -/
def NamesRecord (t : Table) (s : Session) (req : Fields) : Operation → Prop
  | .get key _ => NamesKey key req
  | .update key _ _ => NamesKey key req
  | .delete key _ => NamesKey key req
  | .create item id _ => StoresRecord t s req (.create item id)
  | .replace key item _ =>
    ∃ ks, Key.validate key = .ok ks ∧ StoresRecord t s req (.replace (.map ks) item)
  | _ => True
where
  NamesKey (key : Value) (req : Fields) : Prop :=
    ∃ ks w, Key.validate key = .ok ks ∧ Wire.encodeItem (.map ks) = .ok w ∧
      req.get? "Key" = some w
  StoresRecord (t : Table) (s : Session) (req : Fields) (write : RecordWrite) : Prop :=
    ∃ stamped d w, Lifecycle.stampWrite t.schema t.sources write s.draws = (.ok stamped, d) ∧
      Wire.encodeItem (.map stamped.record) = .ok w ∧ req.get? "Item" = some w

/-- A request with the parameters that every request ends with, and no others but those of the
operation. -/
structure Framed (t : Table) (op : Operation) (params req : Fields) : Prop where
  table : req.get? "TableName" = some (.text t.name)
  capacity : req.get? "ReturnConsumedCapacity" = some (.text "INDEXES")
  keeps : Keeps op.encodedParams op.writtenParams params req

variable {t : Table} {op : Operation} {s : Session} {params req : Fields}

theorem extendedParams_subset (hop : op.isOnItems = true) :
    ∀ n ∈ extendedParams, n ∈ op.writtenParams := by
  intro n hn
  cases op with
  | batchWrite _ _ => cases hop
  | listTables _ => cases hop
  | createTable _ => cases hop
  | deleteTable _ => cases hop
  | _ => exact List.mem_append_left _ hn

theorem Framed.of_extend (hop : op.isOnItems = true)
    (hkeeps : Keeps op.encodedParams op.writtenParams params req) :
    Framed t op params (t.extend req) where
  table := by rw [extend, Fields.get?_put, if_neg (by decide), Fields.get?_put, if_pos rfl]
  capacity := by rw [extend, Fields.get?_put, if_pos rfl]
  keeps := hkeeps.trans (keeps_extend (extendedParams_subset hop))

/-- A request that ends with the key or the item of its record. -/
theorem Framed.record {name : String} (hop : op.isOnItems = true)
    (hkeeps : Keeps op.encodedParams op.writtenParams params req)
    (hname : name ∈ op.writtenParams) (hother : name ∉ extendedParams) (w : Value) :
    Framed t op params ((t.extend req).put name w) := by
  obtain ⟨htable, hcapacity, hextend⟩ := Framed.of_extend (t := t) hop hkeeps
  constructor
  · rw [Fields.get?_put, if_neg fun hn => hother (by rw [hn]; decide), htable]
  · rw [Fields.get?_put, if_neg fun hn => hother (by rw [hn]; decide), hcapacity]
  · exact hextend.trans (.put hname w)

/-- **The frame of a request.** Whatever a caller passes, the request of an operation on items
names the table and asks for the consumed capacity, and it names the key or stores the record of
the operation. Every parameter that the operation does not put into wire form or write arrives as
it was passed, and none is added but those that it writes. -/
theorem request_frame (hop : op.isOnItems = true) (hparams : op.params.toFieldsOrEmpty = .ok params)
    (hsent : t.Sends op s req) : Framed t op params req ∧ NamesRecord t s req op := by
  obtain ⟨p, progress, hp, rfl, -⟩ := sends_iff.mp hsent
  cases op with
  | get key given =>
    obtain ⟨ks, built, w, hks, hbuilt, hw, rfl, -⟩ := prepare_get hp
    refine ⟨.record hop ?_ (by simp [Operation.writtenParams]) (by decide) w, ks, w, hks, hw,
      Fields.get?_put_self ..⟩
    exact ReadRequest.keeps_build (by simp [Operation.writtenParams]) hparams hbuilt
  | query given =>
    obtain ⟨_, built, -, hbuilt, rfl, -⟩ := prepare_query hp
    refine ⟨.of_extend hop ?_, trivial⟩
    exact ReadRequest.keeps_build (by simp [Operation.writtenParams]) hparams hbuilt
  | scan given =>
    obtain ⟨built, hbuilt, rfl, -⟩ := prepare_scan hp
    refine ⟨.of_extend hop ?_, trivial⟩
    exact ReadRequest.keeps_build (by simp [Operation.writtenParams]) hparams hbuilt
  | create item id given =>
    obtain ⟨fs, stamped, d, passed, w, rfl, hstamped, hpassed, hw, rfl, -⟩ := prepare_create hp
    refine ⟨.record hop ?_ (by simp [Operation.writtenParams]) (by decide) w, stamped, d, w,
      hstamped, hw, Fields.get?_put_self ..⟩
    exact keeps_conditionParams (by simp [Operation.encodedParams]) hparams hpassed
  | replace key item given =>
    obtain ⟨ks, fs, stamped, d, passed, w, hks, rfl, hstamped, hpassed, hw, rfl, -⟩ :=
      prepare_replace hp
    refine ⟨.record hop ?_ (by simp [Operation.writtenParams]) (by decide) w, ks, hks, stamped, d,
      w, hstamped, hw, Fields.get?_put_self ..⟩
    exact keeps_conditionParams (by simp [Operation.encodedParams]) hparams hpassed
  | update key attributes given =>
    obtain ⟨ks, fs, stamped, d, u, passed, built, w, hks, -, -, -, hpassed, hbuilt, hw, rfl, -⟩ :=
      prepare_update hp
    -- The parameters are refused as they are or attached to as they are.
    have hsame : given.toFieldsOrEmpty = .ok params := hparams
    rw [freeParams_ok hpassed] at hsame
    cases hsame
    refine ⟨.record hop ?_ (by simp [Operation.writtenParams]) (by decide) w, ks, w, hks, hw,
      Fields.get?_put_self ..⟩
    exact Update.keeps_attach (fun n hn => by simp [Operation.writtenParams, hn]) hbuilt
  | delete key given =>
    obtain ⟨ks, passed, w, hks, hpassed, hw, rfl, -⟩ := prepare_delete hp
    refine ⟨.record hop ?_ (by simp [Operation.writtenParams]) (by decide) w, ks, w, hks, hw,
      Fields.get?_put_self ..⟩
    exact keeps_conditionParams (by simp [Operation.encodedParams]) hparams hpassed
  | batchWrite requests account => cases hop
  | listTables given => cases hop
  | createTable given => cases hop
  | deleteTable given => cases hop

/-- An update whose caller names another table and says what to return: the latter arrives, the
other name does not, and no item is added. -/
theorem request_frame_update :
    let t : Table :=
      ⟨"records", ⟨false, false, true⟩, ⟨fun _ => some ⟨0, some 0⟩, fun _ => ""⟩, "account"⟩
    let key : Value := .map [(.text "id", .text "k")]
    let attributes : Value := .map [(.text "size", .int 3)]
    let params : Fields :=
      [(.text "TableName", .text "others"), (.text "ReturnValues", .text "NONE")]
    let op : Operation := .update key attributes (.map params)
    ∃ req, op.isOnItems = true ∧ op.params.toFieldsOrEmpty = .ok params ∧
      t.Sends op (.start []) req ∧ Framed t op params req ∧ NamesRecord t (.start []) req op ∧
      req.get? "TableName" = some (.text "records") ∧
      req.getKey? (.text "ReturnValues") = some (.text "NONE") ∧
      req.getKey? (.text "Item") = none := by
  intro t key attributes params op
  have hparams : op.params.toFieldsOrEmpty = .ok params := by cbv
  have hreturn : params.getKey? (.text "ReturnValues") = some (.text "NONE") := by cbv
  have hitem : params.getKey? (.text "Item") = none := by cbv
  obtain ⟨req, hsent⟩ : ∃ req, t.Sends (.update key attributes (.map params)) (.start []) req :=
    exists_sends (by cbv) (by cbv)
  obtain ⟨hframed, hrecord⟩ := request_frame rfl hparams hsent
  refine ⟨req, rfl, hparams, hsent, hframed, hrecord, hframed.table, ?_, ?_⟩
  · rw [hframed.keeps.unchanged _ (by decide), hreturn]
  · exact hframed.keeps.absent _ (by decide) hitem

end Table

end ItemStore
