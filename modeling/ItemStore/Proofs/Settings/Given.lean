import ItemStore.Proofs.Outcome
import ItemStore.Proofs.Settings

/-! Settings by name.

Settings may be given as a map from their names. Each entry changes the one setting of its name, so
over a whole map every setting is the one under its name, or else the standard one, and nothing but
a key that is no name makes them fail. A client takes from them what is not null. -/
namespace ItemStore.Settings

variable {s s' : Settings} {fs : Fields} {k v : Value} {name : String}

/-! ### Settings and their names -/

def names : List String := ["region", "endpoint_url", "log_level", "service", "connect_timeout",
  "read_timeout", "max_attempts"]

/-- The setting of a name. -/
def value (s : Settings) : String → Value
  | "region" => s.region
  | "endpoint_url" => s.endpoint
  | "log_level" => s.logLevel
  | "service" => s.service
  | "connect_timeout" => s.connectTimeout
  | "read_timeout" => s.readTimeout
  | "max_attempts" => s.maxAttempts
  | _ => .null

def IsName (k : Value) : Prop := ∃ name ∈ names, k = .text name

/-- Settings are known by their values under the names. -/
theorem eq_of_value (h : ∀ name ∈ names, s.value name = s'.value name) : s = s' := by
  simp only [names, List.forall_mem_cons, List.not_mem_nil, value] at h
  obtain ⟨hregion, hendpoint, hlevel, hservice, hconnect, hread, hattempts, -⟩ := h
  cases s
  cases s'
  simp_all only

/-- An entry changes the setting of its name and no other. -/
theorem change_text (hname : name ∈ names) (s : Settings) (v : Value) :
    ∃ s', change s (.text name, v) = .ok s' ∧
      ∀ other ∈ names, s'.value other = if name = other then v else s.value other := by
  simp only [names, List.mem_cons, List.not_mem_nil, or_false] at hname
  rcases hname with rfl | rfl | rfl | rfl | rfl | rfl | rfl <;>
    exact ⟨_, rfl, by simp [names, value]⟩

theorem change_of_not_isName (h : ¬ IsName k) (s : Settings) (v : Value) :
    change s (k, v) = .error .wrongType := by
  unfold change
  split
  case h_8 => rfl
  all_goals
    next heq =>
      obtain ⟨rfl, -⟩ := Prod.mk.inj heq
      refine absurd ⟨_, ?_, rfl⟩ h
      decide

/-! ### Settings from a map -/

/-- A map of names is gone through to its end. -/
theorem foldlM_change (hmap : fs.IsMap) (hnames : ∀ e ∈ fs, IsName e.1) (s : Settings) :
    ∃ s', fs.foldlM change s = .ok s' ∧
      ∀ name ∈ names, s'.value name = (fs.get? name).getD (s.value name) := by
  induction fs generalizing s with
  | nil => exact ⟨s, rfl, fun _ _ => rfl⟩
  | cons e fs ih =>
    obtain ⟨k, v⟩ := e
    obtain ⟨⟨name, hname, rfl⟩, hrest⟩ := List.forall_mem_cons.mp hnames
    obtain ⟨s₁, hchange, hs₁⟩ := change_text hname s v
    obtain ⟨s₂, hfold, hs₂⟩ := ih hmap.tail hrest s₁
    refine ⟨s₂, by rw [List.foldlM_cons, hchange]; exact hfold, fun other hother => ?_⟩
    rw [hs₂ other hother, hs₁ other hother, Fields.get?_cons, Value.text_same]
    by_cases h : name = other
    · -- The name stands in the map once, so no later entry changes the setting again.
      have hnone : Fields.get? fs other = none := hmap.get?_tail (congrArg Value.text h)
      simp [h, hnone]
    · simp [h]

theorem foldlM_change_of_not_isName (h : ∃ e ∈ fs, ¬ IsName e.1) (s : Settings) :
    fs.foldlM change s = .error .wrongType := by
  induction fs generalizing s with
  | nil =>
    obtain ⟨e, he, -⟩ := h
    cases he
  | cons e fs ih =>
    obtain ⟨k, v⟩ := e
    rw [List.foldlM_cons]
    by_cases hk : IsName k
    · obtain ⟨name, hname, rfl⟩ := hk
      obtain ⟨s₁, hchange, -⟩ := change_text hname s v
      rw [hchange]
      refine ih ?_ s₁
      obtain ⟨e, he, hnot⟩ := h
      rcases List.mem_cons.mp he with rfl | he
      · exact absurd ⟨name, hname, rfl⟩ hnot
      · exact ⟨e, he, hnot⟩
    · rw [change_of_not_isName hk]
      rfl

/-- **Settings from a map.** They are right if each is the one under its name, or else the standard
one, and there are none just if some key is no name of a setting. -/
theorem ofValue_map_iff (hmap : fs.IsMap) :
    (∀ s, ofValue (.map fs) = .ok s ↔ (∀ e ∈ fs, IsName e.1) ∧
      ∀ name ∈ names, s.value name = (fs.get? name).getD (standard.value name)) ∧
    ∀ f, ofValue (.map fs) = .error f ↔ f = .wrongType ∧ ∃ e ∈ fs, ¬ IsName e.1 := by
  by_cases hnot : ∃ e ∈ fs, ¬ IsName e.1
  · have hnames : ¬ ∀ e ∈ fs, IsName e.1 := fun h => hnot.elim fun e he => he.2 (h e he.1)
    rw [ofValue, foldlM_change_of_not_isName hnot]
    exact ⟨fun s => iff_of_false nofun fun h => hnames h.1, fun f => by simp [hnot, eq_comm]⟩
  · have hnames : ∀ e ∈ fs, IsName e.1 := by simpa using hnot
    obtain ⟨s', hfold, hs'⟩ := foldlM_change hmap hnames standard
    rw [ofValue, hfold]
    refine ⟨fun s => ⟨fun h => Except.ok.inj h ▸ ⟨hnames, hs'⟩, fun h => ?_⟩, by simp [hnot]⟩
    rw [eq_of_value fun name hname => (hs' name hname).trans (h.2 name hname).symm]

/-! ### Clients -/

/-- Settings open a client just if their limit of retries is a number and not negative. -/
theorem clientOptions_error_iff {f : Fault} : s.clientOptions = .error f ↔
    s.maxAttempts.isNegative = .error f ∨
      s.maxAttempts.isNegative = .ok true ∧ f = .retryLimit := by
  rw [clientOptions]
  cases s.maxAttempts.isNegative with
  | error g =>
    show Except.error g = Except.error f ↔ _
    simp
  | ok negative =>
    cases negative with
    | true =>
      show Except.error Fault.retryLimit = Except.error f ↔ _
      simp [eq_comm]
    | false =>
      show Except.ok _ = Except.error f ↔ _
      simp

theorem getD_null_eq_iff (fs : Fields) (name : String) :
    v ≠ .null ∧ (fs.get? name).getD .null = v ↔ v ≠ .null ∧ fs.get? name = some v := by
  cases fs.get? name with
  | none => simp [eq_comm]
  | some w => simp

/-- **Clients from a map.** There is a client unless the limit of retries is negative or no number.
Its options are the region and the endpoint that the map has and that are not null, and no others;
what the map leaves out of the rest is as standard. -/
theorem client_of_map (hmap : fs.IsMap) (hnames : ∀ e ∈ fs, IsName e.1) :
    (∀ f, (ofValue (.map fs) >>= clientOptions) = .error f ↔
      ((fs.get? "max_attempts").getD (.int 3)).isNegative = .error f ∨
        ((fs.get? "max_attempts").getD (.int 3)).isNegative = .ok true ∧ f = .retryLimit) ∧
    ∀ client, (ofValue (.map fs) >>= clientOptions) = .ok client →
      (∀ option v, client.options.get? option = some v ↔ v ≠ .null ∧
        ("region_name" = option ∧ fs.get? "region" = some v ∨
          "endpoint_url" = option ∧ fs.get? "endpoint_url" = some v)) ∧
      client.connectTimeout = (fs.get? "connect_timeout").getD (seconds 1) ∧
      client.readTimeout = (fs.get? "read_timeout").getD (seconds 3) ∧
      client.retries = [(.text "max_attempts", (fs.get? "max_attempts").getD (.int 3)),
        (.text "mode", .text "adaptive")] := by
  obtain ⟨s, hsettings, hvalues⟩ := foldlM_change hmap hnames standard
  have hregion : s.region = (fs.get? "region").getD .null := hvalues "region" (by decide)
  have hendpoint : s.endpoint = (fs.get? "endpoint_url").getD .null :=
    hvalues "endpoint_url" (by decide)
  have hconnect := hvalues "connect_timeout" (by decide)
  have hread := hvalues "read_timeout" (by decide)
  have hattempts : s.maxAttempts = (fs.get? "max_attempts").getD (.int 3) :=
    hvalues "max_attempts" (by decide)
  rw [ofValue, hsettings, Outcome.ok_bind, ← hattempts]
  refine ⟨fun f => clientOptions_error_iff, fun client h => ?_⟩
  rw [clientOptions, Outcome.bind_ok] at h
  obtain ⟨negative, -, h⟩ := h
  cases negative with
  | true => cases h
  | false =>
    cases h
    refine ⟨fun option v => ?_, hconnect, hread, rfl⟩
    rw [get?_parameters (by decide), hregion, hendpoint, and_or_left, and_or_left]
    simp only [and_left_comm (a := v ≠ .null), getD_null_eq_iff]

end ItemStore.Settings
