import ItemStore.Identifier
import ItemStore.Proofs.Text.Digits

/-! Identifiers made from time.

Every part of an identifier is written in digits of one width, so the marks between the parts stand
at the same places whatever the parts are, and each part is read off the digits at its own. So an
identifier always has the form of one (`isTimeBased_ofTime`), and two are the same only if their
parts agree in the bits that are kept (`ofTime_eq_iff`). -/
namespace ItemStore.Identifier

open Text (hexPadded paddedIn)

/-! ### The form of an identifier -/

/-- Whether a character may stand for a mark of the form. -/
def fits (c m : Char) : Bool :=
  match m with
  | 'x' => "0123456789abcdef".toList.contains c
  | 'v' => "89ab".toList.contains c
  | m => c == m

def Fit (cs marks : List Char) : Prop := List.Forall₂ (fun c m => fits c m = true) cs marks

/-- The marks of the form. -/
def form : List Char := "xxxxxxxx-xxxx-1xxx-vxxx-xxxxxxxxxxxx".toList

variable {cs cs' marks marks' : List Char} {width n : Nat}

theorem Fit.append (h : Fit cs marks) (h' : Fit cs' marks') : Fit (cs ++ cs') (marks ++ marks') :=
  List.rel_append h h'

/-- One more part behind a hyphen. -/
theorem Fit.part (h : Fit cs marks) (h' : Fit cs' marks') :
    Fit (cs ++ '-' :: cs') (marks ++ '-' :: marks') :=
  h.append (.cons rfl h')

theorem isTimeBased_iff {s : String} : isTimeBased s = true ↔ Fit s.toList form := by
  rw [Fit, List.forall₂_iff_zip]
  show (s.toList.length == form.length &&
    (s.toList.zip form).all fun e : Char × Char => fits e.1 e.2) = true ↔ _
  simp

theorem fits_digit (h : n < 16) : fits (Nat.digitChar n) 'x' = true := by
  have hall : ∀ n < 16, fits (Nat.digitChar n) 'x' = true := by decide
  exact hall n h

theorem fits_variant (h : n < 4) : fits (Nat.digitChar (8 + n)) 'v' = true := by
  have hall : ∀ n < 4, fits (Nat.digitChar (8 + n)) 'v' = true := by decide
  exact hall n h

/-- Digits of one width fit as many marks. -/
theorem fit_hexPadded (hwidth : 0 < width) (hn : n < 16 ^ width) :
    Fit (hexPadded width n) (List.replicate width 'x') := by
  induction width, hwidth using Nat.le_induction generalizing n with
  | base =>
    rw [pow_one] at hn
    rw [show hexPadded 1 n = [Nat.digitChar n] from Text.paddedIn_one hn]
    exact .cons (fits_digit hn) .nil
  | succ k hk ih =>
    have hlast := fits_digit (Nat.mod_lt n (y := 16) (by decide))
    rw [show hexPadded (k + 1) n = _ from Text.paddedIn_succ (by decide) hk n,
      List.replicate_succ']
    exact (ih (Text.div_lt_pow hn)).append (.cons hlast .nil)

/-- The first digit of a part that marks the form, and the rest. -/
theorem fit_marked {a : Nat} {m : Char} (ha : a < 16) (hm : fits (Nat.digitChar a) m = true)
    (hn : n < 16 ^ 3) : Fit (hexPadded 4 (a * 0x1000 + n)) (m :: List.replicate 3 'x') := by
  rw [show hexPadded 4 (a * 0x1000 + n) = _ from
    Text.paddedIn_cons (by decide) (by decide) ha hn]
  exact .cons hm (fit_hexPadded (by decide) hn)

/-- The variant and the high bits of a sequence number share a digit. -/
theorem variant_eq (sequence : Nat) : 0x8000 + sequence % 0x4000 =
    (8 + sequence % 0x4000 / 0x1000) * 0x1000 + sequence % 0x1000 := by
  omega

/-- **Identifiers have their form.** -/
theorem isTimeBased_ofTime (time sequence node : Nat) :
    isTimeBased (ofTime time sequence node) = true := by
  have hvariant : sequence % 0x4000 / 0x1000 < 4 := by omega
  have hlow : Fit _ (List.replicate 8 'x') :=
    fit_hexPadded (by decide) (Nat.mod_lt time (by decide))
  have hmid : Fit _ (List.replicate 4 'x') :=
    fit_hexPadded (by decide) (Nat.mod_lt (time / 0x100000000) (by decide))
  have hhigh := fit_marked (a := 1) (m := '1') (by decide) rfl
    (Nat.mod_lt (time / 0x1000000000000) (by decide))
  have hsequence := fit_marked (by omega) (fits_variant hvariant)
    (Nat.mod_lt sequence (by decide))
  have hnode : Fit _ (List.replicate 12 'x') :=
    fit_hexPadded (by decide) (Nat.mod_lt node (by decide))
  rw [isTimeBased_iff, ofTime, String.toList_ofList, variant_eq]
  exact (((hlow.part hmid).part hhigh).part hsequence).part hnode

/-! ### What an identifier keeps -/

variable {a b : Nat}

/-- A last part is read off by itself. -/
theorem part_inj (hwidth : 0 < width) (ha : a < 16 ^ width) (hb : b < 16 ^ width) :
    cs ++ '-' :: hexPadded width a = cs' ++ '-' :: hexPadded width b ↔ cs = cs' ∧ a = b := by
  have hlength {n : Nat} (hn : n < 16 ^ width) : (hexPadded width n).length = width :=
    Text.length_paddedIn (by decide) hwidth hn
  rw [← Text.paddedIn_inj (by decide) le_rfl hwidth ha hb]
  refine ⟨fun h => ?_, fun ⟨hcs, hdigits⟩ => hcs ▸ congrArg _ (congrArg _ hdigits)⟩
  obtain ⟨hcs, hdigits⟩ := List.append_inj' h (by simp [hlength ha, hlength hb])
  exact ⟨hcs, List.tail_eq_of_cons_eq hdigits⟩

/-- **Identifiers by their parts.** Two identifiers are the same just if their times agree in 60
bits, their sequence numbers in 14 and their nodes in 48. -/
theorem ofTime_eq_iff (time sequence node time' sequence' node' : Nat) :
    ofTime time sequence node = ofTime time' sequence' node' ↔
      time % 2 ^ 60 = time' % 2 ^ 60 ∧ sequence % 2 ^ 14 = sequence' % 2 ^ 14 ∧
        node % 2 ^ 48 = node' % 2 ^ 48 := by
  have hlow : hexPadded 8 (time % 0x100000000) = hexPadded 8 (time' % 0x100000000) ↔ _ :=
    Text.paddedIn_inj (by decide) le_rfl (by decide) (by omega) (by omega)
  rw [ofTime, ofTime, String.ofList_inj, part_inj (by decide) (by omega) (by omega),
    part_inj (by decide) (by omega) (by omega), part_inj (by decide) (by omega) (by omega),
    part_inj (by decide) (by omega) (by omega), hlow]
  omega

/-- Identifiers of one node made at different times differ, for as long as a time has 60 bits. -/
theorem ofTime_injOn (sequence node : Nat) :
    Set.InjOn (fun time => ofTime time sequence node) (Set.Iio (2 ^ 60)) := by
  intro time htime time' htime' h
  have hmod := ((ofTime_eq_iff ..).mp h).1
  rwa [Nat.mod_eq_of_lt htime, Nat.mod_eq_of_lt htime'] at hmod

example : ofTime 139246058100000000 4660 20015998343868 =
    "556c8500-b38d-11ee-9234-123456789abc" := by decide +kernel

end ItemStore.Identifier
