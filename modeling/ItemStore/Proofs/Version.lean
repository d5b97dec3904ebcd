import ItemStore.Proofs.Text.Run
import ItemStore.Version

/-! The version of a release candidate.

A text is the version of a release candidate if it is put together from the parts of one
(`Candidate.text`), and `normalize` writes just those texts anew. Reading is greedy, and a run of
digits ends where no digit follows, so what is put together is read back part by part
(`candidate?_text`), and whatever is read was put together (`exists_text_of_candidate?`). The new
text has no hyphen behind its release, so it is not written anew again. -/
namespace ItemStore.Version

open Text

/-! ### Runs -/

variable {p : Point → Bool} {run rest ps : Points}

/-- A run is taken off as a whole if nothing goes on with it. -/
theorem run?_append (hrun : IsRun p run) (hrest : EndsRun p rest) :
    run? p (run ++ rest) = some (run, rest) := by
  rw [run?, List.takeWhile_append_of_pos hrun.all, List.dropWhile_append_of_pos hrun.all,
    takeWhile_of_endsRun hrest, dropWhile_of_endsRun hrest, List.append_nil]
  cases hps : run with
  | nil => exact absurd hps hrun.ne_nil
  | cons q qs => rfl

/-- What is taken off is a run. -/
theorem isRun_of_run? (h : run? p ps = some (run, rest)) : IsRun p run ∧ ps = run ++ rest := by
  rw [run?] at h
  split at h
  · cases h
  · next hne =>
    cases h
    exact ⟨⟨hne, fun q hq => List.mem_takeWhile_imp hq⟩, List.takeWhile_append_dropWhile.symm⟩

theorem after?_cons (c : Char) (ps : Points) : after? c (.char c :: ps) = some ps := if_pos rfl

theorem after?_eq_some {c : Char} (h : after? c ps = some rest) : ps = .char c :: rest := by
  cases ps with
  | nil => cases h
  | cons q ps =>
    rw [after?] at h
    split at h
    · next hq =>
      cases h
      rw [hq]
    · cases h

/-! ### Release candidates -/

/-- The parts of the version of a release candidate: the three numbers of its release in the digits
of any script, and its own number. A point may stand before that, and a line feed behind it. -/
structure Candidate where
  major : Points
  minor : Points
  patch : Points
  hasPoint : Bool
  number : Points
  hasLineFeed : Bool
  isRun_major : IsRun isDigit major
  isRun_minor : IsRun isDigit minor
  isRun_patch : IsRun isDigit patch
  isRun_number : IsRun (Point.isIn isAsciiDigit) number

namespace Candidate

def release (c : Candidate) : Points := c.major ++ .char '.' :: c.minor ++ .char '.' :: c.patch

/-- What comes behind `-rc`. -/
def ending (c : Candidate) : Points :=
  (if c.hasPoint then [.char '.'] else []) ++ c.number ++
    (if c.hasLineFeed then [.char '\n'] else [])

/-- The version as it is recorded. -/
def text (c : Candidate) : Points :=
  c.release ++ .char '-' :: .char 'r' :: .char 'c' :: c.ending

/-- The version without the marks. -/
def plain (c : Candidate) : Points := c.release ++ .char 'r' :: .char 'c' :: c.number

end Candidate

theorem not_isDigit_point : isDigit (.char '.') = false := by decide

theorem not_isDigit_hyphen : isDigit (.char '-') = false := by decide

/-- What is read behind the release. -/
def ending? (release ps : Points) : Option (Points × Points) := do
  let ps ← after? '-' ps
  let ps ← after? 'r' ps
  let ps ← after? 'c' ps
  let (number, ps) ← run? (Point.isIn isAsciiDigit) ((after? '.' ps).getD ps)
  if ps = [] ∨ ps = [.char '\n'] then return (release, number) else none

theorem candidate?_release (c : Candidate) {rest : Points} (h : EndsRun isDigit rest) :
    candidate? (c.release ++ rest) = ending? c.release rest := by
  have hmajor := fun ps => run?_append c.isRun_major (endsRun_cons not_isDigit_point ps)
  have hminor := fun ps => run?_append c.isRun_minor (endsRun_cons not_isDigit_point ps)
  have hpatch := run?_append c.isRun_patch h
  simp only [candidate?, ending?, Candidate.release, List.append_assoc, List.cons_append, hmajor,
    hminor, hpatch, after?_cons, Option.bind_eq_bind, Option.bind_some]

theorem run?_ending (c : Candidate) :
    run? (Point.isIn isAsciiDigit) ((after? '.' c.ending).getD c.ending) =
      some (c.number, if c.hasLineFeed then [.char '\n'] else []) := by
  have hends : EndsRun (Point.isIn isAsciiDigit)
      (if c.hasLineFeed then [.char '\n'] else []) := by
    cases c.hasLineFeed with
    | true => exact endsRun_cons (by decide) []
    | false => exact endsRun_nil
  rw [← run?_append c.isRun_number hends, Candidate.ending]
  cases c.hasPoint with
  | true => rfl
  | false =>
    -- The number begins with a digit, so there is no point to take off.
    cases hnumber : c.number with
    | nil => exact absurd hnumber c.isRun_number.ne_nil
    | cons d ds =>
      have hd : d ≠ .char '.' := by
        rintro rfl
        have := c.isRun_number.all (.char '.') (by simp [hnumber])
        exact absurd this (by decide)
      simp [after?, hd]

theorem candidate?_text (c : Candidate) :
    candidate? c.text = some (c.release, c.number) := by
  rw [Candidate.text, candidate?_release c (endsRun_cons not_isDigit_hyphen _), ending?]
  simp only [after?_cons, Option.bind_eq_bind, Option.bind_some, run?_ending]
  cases c.hasLineFeed <;> simp

/-- What follows the release of a plain version is no hyphen. -/
theorem candidate?_plain (c : Candidate) : candidate? c.plain = none := by
  rw [Candidate.plain, candidate?_release c (endsRun_cons (by decide) _)]
  rfl

/-- The end of a text with the point and the line feed that may stand there. -/
theorem exists_ending {number line : Points}
    (hnumber : run? (Point.isIn isAsciiDigit) ((after? '.' ps).getD ps) = some (number, line))
    (hline : line = [] ∨ line = [.char '\n']) :
    ∃ hasPoint hasLineFeed : Bool, ps = (if hasPoint then [.char '.'] else []) ++ number ++
      (if hasLineFeed then [.char '\n'] else []) := by
  have hfeed : ∃ b : Bool, line = if b then [.char '\n'] else [] :=
    hline.elim (fun h => ⟨false, h⟩) fun h => ⟨true, h⟩
  obtain ⟨hasLineFeed, rfl⟩ := hfeed
  have hps := (isRun_of_run? hnumber).2
  cases hpoint : after? '.' ps with
  | none =>
    rw [hpoint] at hps
    exact ⟨false, hasLineFeed, hps⟩
  | some rest =>
    rw [hpoint] at hps
    refine ⟨true, hasLineFeed, ?_⟩
    rw [after?_eq_some hpoint]
    exact congrArg _ hps

/-- Whatever is read was put together. -/
theorem exists_text_of_candidate? {release number : Points}
    (h : candidate? ps = some (release, number)) : ∃ c : Candidate, c.text = ps := by
  simp only [candidate?, Option.bind_eq_bind, Option.bind_eq_some_iff, Prod.exists] at h
  obtain ⟨major, ps₁, hmajor, ps₂, h₁, minor, ps₃, hminor, ps₄, h₃, patch, ps₅, hpatch, ps₆, h₅,
    ps₇, h₆, ps₈, h₇, digits, ps₉, hdigits, h⟩ := h
  split at h
  · next hline =>
    cases h
    obtain ⟨hasPoint, hasLineFeed, hending⟩ := exists_ending hdigits hline
    obtain ⟨isRun_major, rfl⟩ := isRun_of_run? hmajor
    obtain ⟨isRun_minor, rfl⟩ := isRun_of_run? hminor
    obtain ⟨isRun_patch, rfl⟩ := isRun_of_run? hpatch
    have isRun_number := (isRun_of_run? hdigits).1
    refine ⟨⟨major, minor, patch, hasPoint, number, hasLineFeed, isRun_major, isRun_minor,
      isRun_patch, isRun_number⟩, ?_⟩
    rw [after?_eq_some h₁, after?_eq_some h₃, after?_eq_some h₅, after?_eq_some h₆,
      after?_eq_some h₇, hending]
    simp [Candidate.text, Candidate.release, Candidate.ending]
  · cases h

/-! ### Plain versions -/

theorem normalize_text (c : Candidate) : normalize c.text = c.plain := by
  rw [normalize, candidate?_text]
  exact List.append_assoc ..

theorem normalize_plain (c : Candidate) : normalize c.plain = c.plain := by
  rw [normalize, candidate?_plain]

theorem plain_ne_text (c : Candidate) : c.plain ≠ c.text := by
  intro h
  have htext := candidate?_text c
  rw [← h, candidate?_plain] at htext
  cases htext

/-- A text is the version of a release candidate or stays as it is. -/
theorem exists_text_or_normalize (v : Points) :
    (∃ c : Candidate, c.text = v) ∨ (∀ c : Candidate, c.text ≠ v) ∧ normalize v = v := by
  cases h : candidate? v with
  | some parts => exact .inl (exists_text_of_candidate? h)
  | none =>
    refine .inr ⟨?_, by rw [normalize, h]⟩
    rintro c rfl
    rw [candidate?_text] at h
    cases h

/-- **Versions.** Just the texts that are put together as the version of a release candidate are
written anew, as the release, `rc` and the number of the candidate; any other text stays as it is.
What is written anew stays so. -/
theorem normalize_exact (v : Points) :
    (∀ w, normalize v = w ↔
      (∃ c : Candidate, c.text = v ∧ c.plain = w) ∨ (∀ c : Candidate, c.text ≠ v) ∧ v = w) ∧
    (normalize v ≠ v ↔ ∃ c : Candidate, c.text = v) ∧
    normalize (normalize v) = normalize v := by
  rcases exists_text_or_normalize v with ⟨c, rfl⟩ | ⟨hother, hsame⟩
  · have hne : normalize c.text ≠ c.text := by
      rw [normalize_text]
      exact plain_ne_text c
    refine ⟨fun w => ⟨?_, ?_⟩, iff_of_true hne ⟨c, rfl⟩, ?_⟩
    · rintro rfl
      exact .inl ⟨c, rfl, (normalize_text c).symm⟩
    · rintro (⟨c', hc', rfl⟩ | ⟨hother, -⟩)
      · rw [← hc', normalize_text]
      · exact absurd rfl (hother c)
    · rw [normalize_text, normalize_plain]
  · have hnone : ¬ ∃ c : Candidate, c.text = v := fun ⟨c, hc⟩ => hother c hc
    refine ⟨fun w => ?_, iff_of_false (not_not_intro hsame) hnone, by rw [hsame, hsame]⟩
    rw [hsame, or_iff_right fun ⟨c, hc, _⟩ => hother c hc, and_iff_right hother]

example : normalize (points "1.2.3-rc.4") = points "1.2.3rc4" := by decide +kernel

/-! ### Recorded versions -/

variable {v : Value} {ps : Points} {fs : Fields} {record : Option String}

/-- A text that is not empty. -/
def IsText (v : Value) : Prop := ∃ ps, v.points? = some ps ∧ ps ≠ []

theorem isText_iff : (v.points?.isSome && v.isTruthy) = true ↔ IsText v := by
  cases v with
  | text s =>
    have hpoints : points s = [] ↔ s = "" := by simp [points]
    simp [IsText, Value.points?, Value.isTruthy, hpoints]
  | torn t =>
    have hne : t.points ≠ [] := by
      intro h
      have := t.isTorn
      simp [h] at this
    simp [IsText, Value.points?, Value.isTruthy, hne]
  | _ => simp [IsText, Value.points?]

/-- The record is a map of these fields. -/
def Records (record : Option String) (fs : Fields) : Prop :=
  ∃ text, record = some text ∧ Json.read text = .ok (.map fs)

/-- The record can be read but is no map. -/
def IsNoMap (record : Option String) : Prop :=
  ∃ text data, record = some text ∧ Json.read text = .ok data ∧ ∀ fs, data ≠ .map fs

/-- The record is a map with this text for its version, which is not empty. -/
def Says (record : Option String) (v : Value) : Prop :=
  ∃ fs, Records record fs ∧ fs.getD "version" = v ∧ IsText v

theorem Records.recorded (h : Records record fs) : recorded record = .ok
    (if (fs.getD "version").points?.isSome && (fs.getD "version").isTruthy then fs.getD "version"
      else .text unknown) := by
  obtain ⟨text, rfl, hread⟩ := h
  rw [Version.recorded, Option.map_some, hread]
  rfl

theorem Records.says_iff (h : Records record fs) :
    Says record v ↔ fs.getD "version" = v ∧ IsText v := by
  refine ⟨?_, fun hv => ⟨fs, h, hv⟩⟩
  obtain ⟨text, rfl, hread⟩ := h
  rintro ⟨fs', ⟨_, ⟨⟩, hread'⟩, hv⟩
  cases hread.symm.trans hread'
  exact hv

theorem IsNoMap.recorded (h : IsNoMap record) : recorded record = .error .noEntries := by
  obtain ⟨text, data, rfl, hread, hdata⟩ := h
  have hfields : data.fields = .error .noEntries := by
    cases data with
    | map fs => exact absurd rfl (hdata fs)
    | _ => rfl
  rw [Version.recorded, Option.map_some, hread]
  show (data.fields >>= _) = _
  rw [hfields]
  rfl

/-- A record is a map, or no map, or cannot be read and counts as if there were none. -/
theorem record_cases (record : Option String) : (∃ fs, Records record fs) ∨ IsNoMap record ∨
    (∀ fs, ¬ Records record fs) ∧ ¬ IsNoMap record ∧ recorded record = .ok (.text unknown) := by
  cases record with
  | none => exact .inr (.inr ⟨by simp [Records], by simp [IsNoMap], rfl⟩)
  | some text =>
    cases hread : Json.read text with
    | error f =>
      refine .inr (.inr ⟨by simp [Records, hread], by simp [IsNoMap, hread], ?_⟩)
      rw [recorded, Option.map_some, hread]
    | ok data =>
      by_cases hdata : ∃ fs, data = .map fs
      · obtain ⟨fs, rfl⟩ := hdata
        exact .inl ⟨fs, text, rfl, hread⟩
      · exact .inr (.inl ⟨text, data, rfl, hread, fun fs h => hdata ⟨fs, h⟩⟩)

theorem Records.not_isNoMap (h : Records record fs) : ¬ IsNoMap record := by
  intro hnone
  have herror := hnone.recorded
  rw [h.recorded] at herror
  cases herror

/-- **Recorded versions.** A version is the text that a map records, unless that is empty, or else
the version where none is recorded. Only a record that can be read and is no map has no version. -/
theorem recorded_iff (record : Option String) :
    (∀ v, recorded record = .ok v ↔
      Says record v ∨ (∀ w, ¬ Says record w) ∧ ¬ IsNoMap record ∧ v = .text unknown) ∧
    ∀ f, recorded record = .error f ↔ IsNoMap record ∧ f = .noEntries := by
  rcases record_cases record with ⟨fs, hmap⟩ | hnone | ⟨hmap, hnone, hunknown⟩
  · have hnot := hmap.not_isNoMap
    simp only [hmap.says_iff, hmap.recorded]
    refine ⟨fun v => ?_, fun f => by simp [hnot]⟩
    by_cases htext : IsText (fs.getD "version")
    · rw [if_pos (isText_iff.mpr htext)]
      constructor
      · rintro ⟨⟩
        exact .inl ⟨rfl, htext⟩
      · rintro (⟨rfl, -⟩ | ⟨hno, -⟩)
        · rfl
        · exact absurd ⟨rfl, htext⟩ (hno (fs.getD "version"))
    · have hno : ∀ w, ¬ (fs.getD "version" = w ∧ IsText w) := fun w ⟨h, h'⟩ => htext (h ▸ h')
      rw [if_neg (mt isText_iff.mp htext)]
      refine ⟨fun h => .inr ⟨hno, hnot, (Except.ok.inj h).symm⟩, ?_⟩
      rintro (h | ⟨-, -, rfl⟩)
      · exact absurd h (hno v)
      · rfl
  · have hsaid : ∀ w, ¬ Says record w := fun w ⟨fs, h, _⟩ => h.not_isNoMap hnone
    rw [hnone.recorded]
    exact ⟨fun v => by simp [hnone, hsaid], fun f => by simp [hnone, eq_comm]⟩
  · have hsaid : ∀ w, ¬ Says record w := fun w ⟨fs, h, _⟩ => hmap fs h
    rw [hunknown]
    exact ⟨fun v => by simp [hsaid, hnone, eq_comm], fun f => by simp [hnone]⟩

/-- The version of a record is never empty, nor is it without the marks. -/
theorem normalize_recorded_ne_nil (h : recorded record = .ok v) :
    ∃ ps, v.points? = some ps ∧ ps ≠ [] ∧ normalize ps ≠ [] := by
  have htext : IsText v := by
    rcases ((recorded_iff record).1 v).mp h with ⟨_, _, _, htext⟩ | ⟨_, _, rfl⟩
    · exact htext
    · exact ⟨points unknown, rfl, by decide⟩
  obtain ⟨ps, hps, hne⟩ := htext
  refine ⟨ps, hps, hne, ?_⟩
  rcases exists_text_or_normalize ps with ⟨c, rfl⟩ | ⟨-, hsame⟩
  · rw [normalize_text]
    simp [Candidate.plain]
  · rwa [hsame]

end ItemStore.Version
