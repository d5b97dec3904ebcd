import ItemStore.Matching
import ItemStore.Proofs.Outcome
import ItemStore.Proofs.Value.Shape

/-! What it takes to match.

A value matches an expected map if it is a map in which each of the expected entries is found and
matches, and an expected list if it is a list that matches item by item; the wildcard asks for
nothing, and anything else for a value that is the same (`Matches`). A value that is checked and
passes matches. One that matches is never reported as different: all that can stop its check is a
key that cannot be written into the path. -/
namespace ItemStore.Matching

open Outcome
open ItemStore.Text (Points)

/-- Whether a value is expected as a whole, and not part by part. -/
def isWhole : Value → Bool
  | .wildcard => false
  | .map _ => false
  | .list _ => false
  | _ => true

/-- The expected entry is found among some others, with this value. -/
def Finds (fs : Fields) (e : Value × Value) (v : Value) : Prop := fs.getKey? e.1 = some v

/-- The second value is one that the first asks for. -/
inductive Matches : Value → Value → Prop
  | wildcard (v : Value) : Matches .wildcard v
  | map {es fs : Fields} {vs : List Value} (hfinds : List.Forall₂ (Finds fs) es vs)
    (h : List.Forall₂ Matches (es.map Prod.snd) vs) : Matches (.map es) (.map fs)
  | list {es vs : List Value} (h : List.Forall₂ Matches es vs) : Matches (.list es) (.list vs)
  | same {e v : Value} (hwhole : isWhole e = true) (h : e.equals v = .ok true) : Matches e v

/-! ### One step of a check -/

variable {path : Points} {e v : Value}

theorem check_map (es : Fields) : check path (.map es) v =
    match v with
    | .map fs => checkEntries path es fs
    | got => .error (.mismatch (.notMap path got)) := by
  cases v <;> simp [check]

theorem check_list (es : List Value) : check path (.list es) v =
    match v with
    | .list vs =>
      if es.length = vs.length then checkItems path 0 es vs
      else .error (.mismatch (.wrongLength path es.length vs.length))
    | got => .error (.mismatch (.notList path got)) := by
  cases v <;> simp [check]

theorem check_whole (hwhole : isWhole e = true) : check path e v =
    (do if !(← e.equals v) then
      throw (e.quotedIn (v.quotedIn (.mismatch (.different path e v))))) := by
  cases e with
  | wildcard | map | list => cases hwhole
  | _ => simp [check]

/-! ### A check that passes -/

theorem same_of_check (hwhole : isWhole e = true) (h : check path e v = .ok ()) : Matches e v := by
  rw [check_whole hwhole] at h
  obtain ⟨b, hequals, h⟩ := bind_ok.mp h
  cases b with
  | false => cases h
  | true => exact .same hwhole hequals

mutual

theorem matches_of_check : ∀ {path : Points} {e v : Value}, check path e v = .ok () → Matches e v
  | path, e, v, h => by
    cases e with
    | wildcard => exact .wildcard v
    | map es =>
      rw [check_map] at h
      cases v with
      | map fs =>
        obtain ⟨vs, hfinds, hvs⟩ := matches_of_checkEntries h
        exact .map hfinds hvs
      | _ => cases h
    | list es =>
      rw [check_list] at h
      cases v with
      | list vs =>
        dsimp only at h
        split at h
        · next hlength => exact .list (matches_of_checkItems hlength h)
        · cases h
      | _ => cases h
    | _ => exact same_of_check rfl h

theorem matches_of_checkEntries : ∀ {path : Points} {es fs : Fields},
    checkEntries path es fs = .ok () → ∃ vs, List.Forall₂ (Finds fs) es vs ∧
      List.Forall₂ Matches (es.map Prod.snd) vs
  | _, [], _, _ => ⟨[], .nil, .nil⟩
  | path, (k, e) :: es, fs, h => by
    rw [checkEntries] at h
    split at h
    · cases h
    · next v hfound =>
      obtain ⟨step, -, h⟩ := bind_ok.mp h
      obtain ⟨_, hcheck, hrest⟩ := bind_ok.mp h
      obtain ⟨vs, hfinds, hvs⟩ := matches_of_checkEntries hrest
      exact ⟨v :: vs, .cons hfound hfinds, .cons (matches_of_check hcheck) hvs⟩

theorem matches_of_checkItems : ∀ {path : Points} {i : Nat} {es vs : List Value},
    es.length = vs.length → checkItems path i es vs = .ok () → List.Forall₂ Matches es vs
  | _, _, [], [], _, _ => .nil
  | path, i, e :: es, v :: vs, hlength, h => by
    rw [checkItems] at h
    obtain ⟨_, hcheck, hrest⟩ := bind_ok.mp h
    exact .cons (matches_of_check hcheck) (matches_of_checkItems (Nat.succ.inj hlength) hrest)

end

/-! ### A check that fails -/

/-- A value cannot be written into a text. -/
def IsUnwritten (f : Fault) : Prop := f = .wrongType ∨ f = .malformed

theorem shown_unwritten (v : Value) : FailsAs IsUnwritten v.shown := by
  unfold Value.shown
  split
  · exact .ite (.ok _) (.error (.inr rfl))
  · exact .error (.inl rfl)

theorem keyStep_fails (path : Points) (k : Value) : FailsAs IsUnwritten (keyStep path k) :=
  .bind (shown_unwritten k) fun _ _ => .pure _

mutual

/-- What matches is not reported as different. -/
theorem check_of_matches : ∀ {path : Points} {e v : Value}, Matches e v →
    FailsAs IsUnwritten (check path e v)
  | path, e, v, h => by
    cases e with
    | wildcard =>
      rw [check]
      exact .ok ()
    | map es =>
      cases h with
      | map hfinds h =>
        rw [check_map]
        exact checkEntries_of_matches hfinds h
      | same hwhole => cases hwhole
    | list es =>
      cases h with
      | list h =>
        rw [check_list]
        dsimp only
        rw [if_pos h.length_eq]
        exact checkItems_of_matches h
      | same hwhole => cases hwhole
    | _ =>
      cases h with
      | same hwhole hequals =>
        rw [check_whole hwhole, hequals]
        exact .pure ()

theorem checkEntries_of_matches : ∀ {path : Points} {es fs : Fields} {vs : List Value},
    List.Forall₂ (Finds fs) es vs → List.Forall₂ Matches (es.map Prod.snd) vs →
      FailsAs IsUnwritten (checkEntries path es fs)
  | _, [], _, _, _, _ => .ok _
  | path, (k, e) :: es, fs, _, .cons hfound hfinds, .cons he hes => by
    have hfound : fs.getKey? k = some _ := hfound
    rw [checkEntries, hfound]
    exact .bind (keyStep_fails path k) fun _ _ => .bind (check_of_matches he) fun _ _ =>
      checkEntries_of_matches hfinds hes

theorem checkItems_of_matches : ∀ {path : Points} {i : Nat} {es vs : List Value},
    List.Forall₂ Matches es vs → FailsAs IsUnwritten (checkItems path i es vs)
  | _, _, [], _, _ => .ok _
  | path, i, e :: es, _, .cons he hes => by
    rw [checkItems]
    exact .bind (check_of_matches he) fun _ _ => checkItems_of_matches hes

end

/-- A check reports a difference, or came upon two values that cannot be compared or upon one that
cannot be written into the path or the report. -/
def IsVerdict (f : Fault) : Prop := f = .incomparable ∨ IsUnwritten f ∨ ∃ m, f = .mismatch m

theorem IsVerdict.isData {f : Fault} (h : IsVerdict f) : f.isData = true := by
  rcases h with rfl | (rfl | rfl) | ⟨m, rfl⟩ <;> rfl

theorem isVerdict_mismatch (m : Mismatch) : IsVerdict (.mismatch m) := .inr (.inr ⟨m, rfl⟩)

theorem IsVerdict.quotedIn {f : Fault} (h : IsVerdict f) (v : Value) :
    IsVerdict (v.quotedIn f) := by
  unfold Value.quotedIn
  split
  · exact h
  · exact .inr (.inl (.inr rfl))

theorem check_whole_fails (hwhole : isWhole e = true) : FailsAs IsVerdict (check path e v) := by
  rw [check_whole hwhole]
  exact .bind ((e.equals_incomparable v).mono fun _ => .inl) fun _ _ =>
    .ite (.error (((isVerdict_mismatch _).quotedIn v).quotedIn e)) (.pure ())

mutual

theorem check_fails : ∀ (path : Points) (e v : Value), FailsAs IsVerdict (check path e v)
  | path, e, v => by
    cases e with
    | wildcard =>
      rw [check]
      exact .ok ()
    | map es =>
      rw [check_map]
      cases v with
      | map fs => exact checkEntries_fails path es fs
      | _ => exact .error (isVerdict_mismatch _)
    | list es =>
      rw [check_list]
      cases v with
      | list vs => exact .ite (checkItems_fails path 0 es vs) (.error (isVerdict_mismatch _))
      | _ => exact .error (isVerdict_mismatch _)
    | _ => exact check_whole_fails rfl

theorem checkEntries_fails : ∀ (path : Points) (es : List (Value × Value)) (fs : Fields),
    FailsAs IsVerdict (checkEntries path es fs)
  | _, [], _ => .ok _
  | path, (k, v) :: es, fs => by
    rw [checkEntries]
    split
    · exact .error ((isVerdict_mismatch _).quotedIn k)
    · exact .bind ((keyStep_fails path k).mono fun _ h => .inr (.inl h)) fun _ _ =>
        .bind (check_fails _ v _) fun _ _ => checkEntries_fails path es fs

theorem checkItems_fails : ∀ (path : Points) (i : Nat) (es xs : List Value),
    FailsAs IsVerdict (checkItems path i es xs)
  | _, _, [], _ => .ok _
  | _, _, _ :: _, [] => .ok _
  | path, i, e :: es, x :: xs => by
    rw [checkItems]
    exact .bind (check_fails _ e x) fun _ _ => checkItems_fails path (i + 1) es xs

end

end ItemStore.Matching
