import ItemStore.Text.Whitespace
import Mathlib.Data.List.TakeWhile

/-! Runs of characters.

A run of characters of a class, or of other parts of a text, is cut off where the next one is not of
that class (`EndsRun`). Trimming cuts the blanks off at both ends, and what it leaves is the one
part of the text that has nothing but blanks around it and neither begins nor ends with one
(`trims_iff`). -/
namespace ItemStore.Text

section Runs
variable {α : Type} {p : α → Bool} {cs ds : List α}

/-- At least one of a class, and nothing else. -/
structure IsRun (p : α → Bool) (cs : List α) : Prop where
  ne_nil : cs ≠ []
  all : ∀ c ∈ cs, p c = true

/-- The text does not go on with a run. -/
def EndsRun (p : α → Bool) (cs : List α) : Prop := ∀ c ∈ cs.head?, p c = false

theorem endsRun_nil : EndsRun p [] := by simp [EndsRun]

theorem endsRun_cons {c : α} (h : p c = false) (cs : List α) : EndsRun p (c :: cs) := by
  simpa [EndsRun] using h

theorem EndsRun.left (h : EndsRun p (cs ++ ds)) : EndsRun p cs := by
  cases cs with
  | nil => exact endsRun_nil
  | cons c cs => exact h

theorem EndsRun.append (h : EndsRun p cs) (hne : cs ≠ []) (ds : List α) :
    EndsRun p (cs ++ ds) := by
  cases cs with
  | nil => exact absurd rfl hne
  | cons c cs => exact h

theorem takeWhile_of_endsRun (h : EndsRun p cs) : cs.takeWhile p = [] := by
  cases cs with
  | nil => rfl
  | cons c cs => simp [h c rfl]

theorem dropWhile_of_endsRun (h : EndsRun p cs) : cs.dropWhile p = cs := by
  cases cs with
  | nil => rfl
  | cons c cs => simp [h c rfl]

theorem endsRun_dropWhile (p : α → Bool) (cs : List α) : EndsRun p (cs.dropWhile p) := by
  intro c hc
  have hhead := List.head?_dropWhile_not p cs
  rw [hc] at hhead
  exact hhead

end Runs

/-! ### Trimming -/

variable {p : Char → Bool}

theorem trimBy_append {front middle back : List Char} (hfront : ∀ c ∈ front, p c = true)
    (hback : ∀ c ∈ back, p c = true) (hfirst : EndsRun p middle)
    (hlast : EndsRun p middle.reverse) : trimBy p (front ++ (middle ++ back)) = middle := by
  rw [trimBy, List.dropWhile_append_of_pos hfront]
  by_cases hne : middle = []
  · rw [hne, List.nil_append, List.dropWhile_eq_nil_iff.mpr hback]
    rfl
  · have hback' : ∀ c ∈ back.reverse, p c = true := fun c hc => hback c (List.mem_reverse.mp hc)
    rw [dropWhile_of_endsRun (hfirst.append hne back), List.reverse_append,
      List.dropWhile_append_of_pos hback', dropWhile_of_endsRun hlast, List.reverse_reverse]

/-- What is trimmed off the end is of the class. -/
theorem exists_trimBy_append (p : Char → Bool) (cs : List Char) :
    ∃ back, cs.dropWhile p = trimBy p cs ++ back ∧ ∀ c ∈ back, p c = true := by
  refine ⟨((cs.dropWhile p).reverse.takeWhile p).reverse, ?_, fun c hc => ?_⟩
  · rw [trimBy, ← List.reverse_append, List.takeWhile_append_dropWhile, List.reverse_reverse]
  · exact List.mem_takeWhile_imp (List.mem_reverse.mp hc)

/-- There is nothing but blanks in the text. -/
def IsBlank (s : String) : Prop := ∀ c ∈ s.toList, isBlank c = true

/-- The second text is what the blanks at both ends of the first leave over. -/
structure Trims (s t : String) : Prop where
  around : ∃ front back, s.toList = front ++ (t.toList ++ back) ∧
    (∀ c ∈ front, isBlank c = true) ∧ ∀ c ∈ back, isBlank c = true
  first : EndsRun isBlank t.toList
  last : EndsRun isBlank t.toList.reverse

variable {s t : String}

theorem trims_trim (s : String) : Trims s (trim s) := by
  obtain ⟨back, hdrop, hback⟩ := exists_trimBy_append isBlank s.toList
  have hfirst := endsRun_dropWhile isBlank s.toList
  have htrim : (trim s).toList = trimBy isBlank s.toList := String.toList_ofList
  rw [← htrim] at hdrop
  refine ⟨⟨s.toList.takeWhile isBlank, back, ?_, fun c => List.mem_takeWhile_imp, hback⟩, ?_, ?_⟩
  · rw [← hdrop, List.takeWhile_append_dropWhile]
  · rw [hdrop] at hfirst
    exact hfirst.left
  · rw [htrim, trimBy, List.reverse_reverse]
    exact endsRun_dropWhile _ _

theorem trims_iff : Trims s t ↔ trim s = t := by
  constructor
  · rintro ⟨⟨front, back, hs, hfront, hback⟩, hfirst, hlast⟩
    rw [trim, hs, trimBy_append hfront hback hfirst hlast, String.ofList_toList]
  · rintro rfl
    exact trims_trim s

/-- Just of a blank text nothing is left over. -/
theorem trim_eq_empty_iff : trim s = "" ↔ IsBlank s := by
  rw [← trims_iff]
  constructor
  · rintro ⟨⟨front, back, hs, hfront, hback⟩, -, -⟩
    intro c hc
    rw [hs] at hc
    simp only [String.toList_empty, List.nil_append, List.mem_append] at hc
    exact hc.elim (hfront c) (hback c)
  · intro h
    exact ⟨⟨s.toList, [], by simp, h, by simp⟩, endsRun_nil, endsRun_nil⟩

end ItemStore.Text
