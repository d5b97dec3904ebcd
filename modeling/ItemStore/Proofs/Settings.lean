import ItemStore.Proofs.Fields
import ItemStore.Proofs.Text.Run
import ItemStore.Settings

/-! Settings from the environment.

A variable that is blank counts as one that is not set, and any other stands for its text between
the blanks (`Gives`). Of the variables for a setting the first that is not empty decides (`Sets`):
if it is blank there is no setting, whatever the later ones hold. A client is opened with the region
and the endpoint exactly if there are any. -/
namespace ItemStore

namespace Settings

open Text (Trims IsBlank trim trims_iff trim_eq_empty_iff)

variable {env : Environment} {name t : String} {names : List String} {v : Value}

/-! ### What the environment says -/

/-- The variable is absent or empty. -/
def IsEmpty (env : Environment) (name : String) : Prop := ∀ s, env.lookup name = some s → s = ""

/-- The variable is there and not blank. -/
def IsSet (env : Environment) (name : String) : Prop :=
  ∃ s, env.lookup name = some s ∧ ¬ IsBlank s

/-- Between its blanks the variable has this text, which is not empty. -/
def Gives (env : Environment) (name t : String) : Prop :=
  ∃ s, env.lookup name = some s ∧ Trims s t ∧ t ≠ ""

/-- The first of some variables that is not empty gives this text. -/
def Sets (env : Environment) : List String → String → Prop
  | [], _ => False
  | name :: names, t => Gives env name t ∨ IsEmpty env name ∧ Sets env names t

theorem exists_sets_cons_iff :
    (∃ t, Sets env (name :: names) t) ↔
      (∃ t, Gives env name t) ∨ IsEmpty env name ∧ ∃ t, Sets env names t := by
  simp only [Sets, exists_or, exists_and_left]

theorem exists_gives_iff : (∃ t, Gives env name t) ↔ IsSet env name := by
  constructor
  · rintro ⟨t, s, hs, htrims, hne⟩
    refine ⟨s, hs, fun hblank => hne ?_⟩
    rw [← trims_iff.mp htrims, trim_eq_empty_iff.mpr hblank]
  · rintro ⟨s, hs, hblank⟩
    exact ⟨trim s, s, hs, trims_iff.mpr rfl, fun h => hblank (trim_eq_empty_iff.mp h)⟩

theorem exists_sets_singleton_iff : (∃ t, Sets env [name] t) ↔ IsSet env name := by
  rw [exists_sets_cons_iff, exists_gives_iff]
  simp [Sets]

/-! ### What is read of it -/

theorem nonEmpty?_eq_some {s : String} : nonEmpty? s = some t ↔ s = t ∧ t ≠ "" := by
  unfold nonEmpty?
  by_cases hs : s = ""
  · simp [hs, eq_comm]
  · rw [if_neg (by simpa using hs), Option.some_inj]
    exact ⟨fun h => ⟨h, h ▸ hs⟩, And.left⟩

theorem isEmpty_or_exists (env : Environment) (name : String) :
    IsEmpty env name ∨ ∃ s, env.lookup name = some s ∧ s ≠ "" := by
  cases hs : env.lookup name with
  | none => exact .inl fun s h => nomatch hs.symm.trans h
  | some s =>
    by_cases hne : s = ""
    · exact .inl fun s' h => Option.some.inj (hs.symm.trans h) ▸ hne
    · exact .inr ⟨s, rfl, hne⟩

theorem lookup_of_isEmpty (h : IsEmpty env name) :
    lookup env (name :: names) = lookup env names := by
  have hnone : (env.lookup name).filter (· != "") = none := by
    cases hs : env.lookup name with
    | none => rfl
    | some s => simp [h s hs]
  rw [lookup, List.findSome?_cons, hnone]
  rfl

theorem lookup_of_ne_empty {s : String} (hs : env.lookup name = some s) (hne : s ≠ "") :
    lookup env (name :: names) = s := by
  have hsome : (env.lookup name).filter (· != "") = some s := by simp [hs, hne]
  rw [lookup, List.findSome?_cons, hsome]
  rfl

theorem IsEmpty.not_gives (h : IsEmpty env name) : ¬ Gives env name t := by
  rintro ⟨s, hs, htrims, hne⟩
  rw [h s hs] at htrims
  exact hne (trims_iff.mp htrims).symm

/-- The first variable that is not empty is trimmed, and is the setting unless nothing is left. -/
theorem setting?_eq_some_iff : setting? env names = some t ↔ Sets env names t := by
  induction names with
  | nil => exact iff_of_false nofun id
  | cons name names ih =>
    rw [Sets, setting?]
    rcases isEmpty_or_exists env name with hempty | ⟨s, hs, hne⟩
    · rw [lookup_of_isEmpty hempty, or_iff_right hempty.not_gives, and_iff_right hempty, ← ih]
      rfl
    · have hset : ¬ IsEmpty env name := fun h => hne (h s hs)
      rw [lookup_of_ne_empty hs hne, or_iff_left fun h => hset h.1, nonEmpty?_eq_some, Gives, hs]
      simp [trims_iff]

/-- A setting is the text that is given for it, or else has another value. -/
inductive Settles (given : String → Prop) (otherwise : Value) : Value → Prop
  | given {t : String} (h : given t) : Settles given otherwise (.text t)
  | otherwise (h : ∀ t, ¬ given t) : Settles given otherwise otherwise

theorem settles_setting (env : Environment) (names : List String) (otherwise : Value) :
    Settles (Sets env names) otherwise (((setting? env names).map Value.text).getD otherwise) := by
  cases h : setting? env names with
  | some t => exact .given (setting?_eq_some_iff.mp h)
  | none =>
    refine .otherwise fun t ht => ?_
    rw [setting?_eq_some_iff.mpr ht] at h
    cases h

/-! ### The client -/

theorem parameter_of_ne_null (name : String) (h : v ≠ .null) :
    parameter name v = [(.text name, v)] := by
  cases v with
  | null => exact absurd rfl h
  | _ => rfl

/-- A parameter is found under its own name only, and only if it is not null. -/
theorem get?_parameter (name n : String) (w v : Value) :
    (parameter name w).get? n = some v ↔ v ≠ .null ∧ name = n ∧ w = v := by
  by_cases hw : w = .null
  · rw [hw]
    exact iff_of_false nofun fun h => h.1 h.2.2.symm
  · rw [parameter_of_ne_null name hw, Fields.get?_cons, Value.text_same, Fields.get?_nil]
    by_cases hn : name = n
    · rw [hn, if_pos (beq_self_eq_true n), Option.some_inj, and_iff_right rfl]
      exact ⟨fun h => ⟨h ▸ hw, h⟩, And.right⟩
    · simp [hn]

theorem get?_parameters {a b : String} (hne : a ≠ b) (r e v : Value) (n : String) :
    Fields.get? (parameter a r ++ parameter b e) n = some v ↔
      v ≠ .null ∧ (a = n ∧ r = v ∨ b = n ∧ e = v) := by
  have happend : Fields.get? (parameter a r ++ parameter b e) n =
      ((parameter a r).get? n).or ((parameter b e).get? n) := Fields.getKey?_append ..
  rw [happend, Option.or_eq_some_iff, get?_parameter, get?_parameter]
  by_cases ha : a = n
  · have hb : b ≠ n := fun hb => hne (ha.trans hb.symm)
    simp [ha, hb]
  · have hnone : (parameter a r).get? n = none :=
      Option.eq_none_iff_forall_ne_some.mpr fun w h => ha ((get?_parameter a n r w).mp h).2.1
    simp [ha, hnone]

/-- A setting of the environment that is not null is a text that the environment sets. -/
theorem textOrNull_setting_iff :
    v ≠ .null ∧ textOrNull (setting? env names) = v ↔ ∃ t, Sets env names t ∧ v = .text t := by
  simp only [← setting?_eq_some_iff]
  cases setting? env names with
  | none => simp [textOrNull, eq_comm]
  | some t =>
    simp only [textOrNull, Option.map_some, Option.getD_some, Option.some_inj]
    constructor
    · rintro ⟨-, rfl⟩
      exact ⟨t, rfl, rfl⟩
    · rintro ⟨t', rfl, rfl⟩
      exact ⟨nofun, rfl⟩

/-- The limit of retries is not negative, so a client is opened. -/
theorem clientOptions_fromEnvironment (env : Environment) :
    ∃ client, (fromEnvironment env).clientOptions = .ok client ∧
      client.options = parameter "region_name" (fromEnvironment env).region ++
        parameter "endpoint_url" (fromEnvironment env).endpoint := by
  have htried : (fromEnvironment env).maxAttempts.isNegative = .ok false := rfl
  rw [clientOptions, htried]
  exact ⟨_, rfl, rfl⟩

theorem region_fromEnvironment (env : Environment) : (fromEnvironment env).region =
    textOrNull (setting? env ["AWS_REGION", "AWS_DEFAULT_REGION"]) := by
  rw [fromEnvironment]

theorem endpoint_fromEnvironment (env : Environment) : (fromEnvironment env).endpoint =
    textOrNull (setting? env ["DYNAMODB_ENDPOINT"]) := by
  rw [fromEnvironment]

theorem service_fromEnvironment (env : Environment) : (fromEnvironment env).service =
    ((setting? env ["POWERTOOLS_SERVICE_NAME"]).map Value.text).getD (.text defaultService) := by
  rw [fromEnvironment, Option.getD_map]

/-- **Settings.** The first variable for a setting that is not empty decides: what it has between
its blanks is the setting, and if it is blank the region and the endpoint are not set and the
service is the one unless it is set. A client is opened with just the region and the endpoint that
are set, so with either exactly if the variable that decides is not blank. -/
theorem settings_trimmed (env : Environment) :
    Settles (Sets env ["AWS_REGION", "AWS_DEFAULT_REGION"]) .null (fromEnvironment env).region ∧
    Settles (Sets env ["DYNAMODB_ENDPOINT"]) .null (fromEnvironment env).endpoint ∧
    Settles (Sets env ["POWERTOOLS_SERVICE_NAME"]) (.text defaultService)
      (fromEnvironment env).service ∧
    (∃ client, (fromEnvironment env).clientOptions = .ok client ∧
      (∀ v, client.options.get? "region_name" = some v ↔
        ∃ t, Sets env ["AWS_REGION", "AWS_DEFAULT_REGION"] t ∧ v = .text t) ∧
      ∀ v, client.options.get? "endpoint_url" = some v ↔
        ∃ t, Sets env ["DYNAMODB_ENDPOINT"] t ∧ v = .text t) ∧
    ((∃ t, Sets env ["AWS_REGION", "AWS_DEFAULT_REGION"] t) ↔
      IsSet env "AWS_REGION" ∨ IsEmpty env "AWS_REGION" ∧ IsSet env "AWS_DEFAULT_REGION") ∧
    ((∃ t, Sets env ["DYNAMODB_ENDPOINT"] t) ↔ IsSet env "DYNAMODB_ENDPOINT") := by
  refine ⟨?_, ?_, ?_, ?_, ?_, ?_⟩
  · rw [region_fromEnvironment]
    exact settles_setting ..
  · rw [endpoint_fromEnvironment]
    exact settles_setting ..
  · rw [service_fromEnvironment]
    exact settles_setting ..
  · obtain ⟨client, hopened, hoptions⟩ := clientOptions_fromEnvironment env
    have hpassed := get?_parameters (show "region_name" ≠ "endpoint_url" by decide)
      (fromEnvironment env).region (fromEnvironment env).endpoint
    rw [← hoptions, region_fromEnvironment, endpoint_fromEnvironment] at hpassed
    refine ⟨client, hopened, fun v => ?_, fun v => ?_⟩
    · rw [hpassed, ← textOrNull_setting_iff]
      simp
    · rw [hpassed, ← textOrNull_setting_iff]
      simp
  · rw [exists_sets_cons_iff, exists_gives_iff, exists_sets_singleton_iff]
  · exact exists_sets_singleton_iff

/-- A blank variable for the region hides the one that is looked at next. -/
theorem blank_region_hides :
    ¬ ∀ (env : Environment) (t : String), ¬ IsSet env "AWS_REGION" →
      Gives env "AWS_DEFAULT_REGION" t → (fromEnvironment env).region = .text t := by
  intro h
  let env : Environment := [("AWS_REGION", " "), ("AWS_DEFAULT_REGION", "eu-west-1")]
  have hunset : ¬ IsSet env "AWS_REGION" := by
    rintro ⟨s, ⟨⟩, hs⟩
    exact hs (trim_eq_empty_iff.mp (by decide))
  have hgives : Gives env "AWS_DEFAULT_REGION" "eu-west-1" :=
    ⟨_, rfl, trims_iff.mpr (by decide), by decide⟩
  have hnull : (fromEnvironment env).region = .null := by decide +kernel
  rw [h env "eu-west-1" hunset hgives] at hnull
  cases hnull

end Settings

end ItemStore
