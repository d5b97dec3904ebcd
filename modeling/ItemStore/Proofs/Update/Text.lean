import ItemStore.Update.Expression
import Mathlib.Data.List.Basic

/-! The text of an update reads back.

The text is cut into tokens word by word: `tokensFrom_word` says that a word which nothing extends
is one token, `tokensFrom_joined` that parts between commas are read one after the other. A
placeholder is such a word. So the text of an update reads as its two clauses, whatever the fields
and however many (`read?_expression`): no placeholder is taken for another, a longer number
included, and an empty clause leaves no trace. -/
namespace ItemStore

namespace UpdateExpression

/-! ### Words -/

/-- A character that can stand in a word. -/
def isLetter (c : Char) : Bool := c != ' ' && c != ',' && c != '='

theorem space_not_letter : isLetter ' ' = false := by decide

theorem comma_not_letter : isLetter ',' = false := by decide

/-- A text that is one token. -/
def IsWord (w : String) : Prop := w ≠ "" ∧ ∀ c ∈ w.toList, isLetter c = true

/-- What follows does not go on with a word. -/
def EndsWord (cs : List Char) : Prop := ∀ c ∈ cs.head?, isLetter c = false

theorem endsWord_nil : EndsWord [] := by simp [EndsWord]

theorem endsWord_cons {c : Char} (h : isLetter c = false) (cs : List Char) :
    EndsWord (c :: cs) := by
  simpa [EndsWord] using h

theorem tokensFrom_space (cs : List Char) : tokensFrom [] (' ' :: cs) = tokensFrom [] cs := rfl

theorem tokensFrom_comma (cs : List Char) :
    tokensFrom [] (',' :: cs) = .comma :: tokensFrom [] cs := rfl

theorem tokensFrom_equals (cs : List Char) :
    tokensFrom [] ('=' :: cs) = .equals :: tokensFrom [] cs := rfl

theorem tokensFrom_letters {w : List Char} (hw : ∀ c ∈ w, isLetter c = true)
    (letters rest : List Char) :
    tokensFrom letters (w ++ rest) = tokensFrom (w.reverse ++ letters) rest := by
  induction w generalizing letters with
  | nil => rfl
  | cons c w ih =>
    have hc := hw c (List.mem_cons_self ..)
    simp only [isLetter, Bool.and_eq_true, bne_iff_ne] at hc
    rw [List.cons_append, tokensFrom, if_neg hc.1.1, if_neg hc.1.2, if_neg hc.2,
      ih fun d hd => hw d (List.mem_cons_of_mem _ hd), List.reverse_cons, List.append_assoc]
    rfl

/-- Where a word ends, its letters are a token. -/
theorem tokensFrom_ends {rest : List Char} (h : EndsWord rest) (letters : List Char) :
    tokensFrom letters rest = consWord letters (tokensFrom [] rest) := by
  cases rest with
  | nil => rfl
  | cons c cs =>
    have hc := h c rfl
    unfold tokensFrom
    by_cases h1 : c = ' '
    · rw [if_pos h1, if_pos h1]
      rfl
    · by_cases h2 : c = ','
      · rw [if_neg h1, if_neg h1, if_pos h2, if_pos h2]
        rfl
      · by_cases h3 : c = '='
        · rw [if_neg h1, if_neg h1, if_neg h2, if_neg h2, if_pos h3, if_pos h3]
          rfl
        · simp [isLetter, h1, h2, h3] at hc

/-- A word that nothing extends is a token. -/
theorem tokensFrom_word {w : String} (hw : IsWord w) {rest : List Char} (h : EndsWord rest) :
    tokensFrom [] (w.toList ++ rest) = .word w :: tokensFrom [] rest := by
  rw [tokensFrom_letters hw.2, tokensFrom_ends h, List.append_nil]
  cases hr : w.toList.reverse with
  | nil =>
    rw [List.reverse_eq_nil_iff, String.toList_eq_nil_iff] at hr
    exact absurd hr hw.1
  | cons c cs =>
    rw [consWord, ← hr, List.reverse_reverse, String.ofList_toList]
    simp

theorem isLetter_of_isDigit {c : Char} (h : c.isDigit = true) : isLetter c = true := by
  have hne : ∀ d : Char, d.isDigit = false → c ≠ d := by
    intro d hd hcd
    rw [hcd, hd] at h
    cases h
  simp only [isLetter, Bool.and_eq_true, bne_iff_ne]
  exact ⟨⟨hne _ (by decide), hne _ (by decide)⟩, hne _ (by decide)⟩

/-- A number behind letters makes a word. -/
theorem isWord_numbered {stem : String} (hs : ∀ c ∈ stem.toList, isLetter c = true) (i : Nat) :
    IsWord (stem ++ toString i) := by
  constructor
  · rw [Ne, String.append_eq_empty_iff]
    exact fun h => Nat.repr_ne_empty h.2
  · intro c hc
    rw [String.toList_append, List.mem_append] at hc
    rcases hc with hc | hc
    · exact hs c hc
    · rw [Nat.toString_eq_ofList_toDigits, String.toList_ofList] at hc
      exact isLetter_of_isDigit (Nat.isDigit_of_mem_toDigits (by decide) (by decide) hc)

/-! ### Parts between commas -/

theorem tokensFrom_joined {α : Type} {text : α → List Char} {parts : α → List Token}
    (hpart : ∀ a rest, EndsWord rest →
      tokensFrom [] (text a ++ rest) = parts a ++ tokensFrom [] rest)
    (as : List α) {rest : List Char} (h : EndsWord rest) :
    tokensFrom [] ([',', ' '].intercalate (as.map text) ++ rest) =
      [.comma].intercalate (as.map parts) ++ tokensFrom [] rest := by
  induction as with
  | nil => rfl
  | cons a as ih =>
    cases as with
    | nil => simpa using hpart a rest h
    | cons b as =>
      simp only [List.map_cons, List.intercalate_cons_cons, List.append_assoc, List.cons_append,
        List.nil_append] at ih ⊢
      rw [hpart a _ (endsWord_cons comma_not_letter _), tokensFrom_comma, tokensFrom_space, ih]

/-- The text of an assignment. -/
def assignmentText (a : String × String) : String := a.1 ++ " = " ++ a.2

def assignmentTokens (a : String × String) : List Token := [.word a.1, .equals, .word a.2]

theorem tokensFrom_assignment {a : String × String} (hname : IsWord a.1) (hvalue : IsWord a.2)
    {rest : List Char} (h : EndsWord rest) :
    tokensFrom [] ((assignmentText a).toList ++ rest) =
      assignmentTokens a ++ tokensFrom [] rest := by
  have heq : " = ".toList = [' ', '=', ' '] := rfl
  rw [assignmentText, String.toList_append, String.toList_append, heq]
  simp only [List.append_assoc, List.cons_append, List.nil_append]
  rw [tokensFrom_word hname (endsWord_cons space_not_letter _), tokensFrom_space,
    tokensFrom_equals, tokensFrom_space, tokensFrom_word hvalue h]
  rfl

/-! ### Clauses -/

/-- What follows a list of parts does not go on with it. -/
def EndsParts (ts : List Token) : Prop := ∀ t ∈ ts.head?, t ≠ .comma

theorem endsParts_nil : EndsParts [] := by simp [EndsParts]

theorem assignments?_joined (as : List (String × String)) (hne : as ≠ []) {ts : List Token}
    (h : EndsParts ts) :
    assignments? ([.comma].intercalate (as.map assignmentTokens) ++ ts) = some (as, ts) := by
  induction as with
  | nil => exact absurd rfl hne
  | cons a as ih =>
    cases as with
    | nil =>
      cases ts with
      | nil => rfl
      | cons t ts =>
        have ht := h t rfl
        cases t with
        | comma => exact absurd rfl ht
        | word w => rfl
        | equals => rfl
    | cons b as =>
      simp only [List.map_cons, List.intercalate_cons_cons, List.append_assoc] at ih ⊢
      simp only [assignmentTokens, List.cons_append, List.nil_append] at ih ⊢
      rw [assignments?, ih (by simp)]
      rfl

theorem names?_joined (ns : List String) (hne : ns ≠ []) {ts : List Token} (h : EndsParts ts) :
    names? ([.comma].intercalate (ns.map fun n => [.word n]) ++ ts) = some (ns, ts) := by
  induction ns with
  | nil => exact absurd rfl hne
  | cons n ns ih =>
    cases ns with
    | nil =>
      cases ts with
      | nil => rfl
      | cons t ts =>
        have ht := h t rfl
        cases t with
        | comma => exact absurd rfl ht
        | word w => rfl
        | equals => rfl
    | cons m ns =>
      simp only [List.map_cons, List.intercalate_cons_cons, List.append_assoc] at ih ⊢
      simp only [List.cons_append, List.nil_append] at ih ⊢
      rw [names?, ih (by simp)]
      rfl

/-- The tokens of a clause; none if it has no parts. -/
def clauseTokens (keyword : String) : List (List Token) → List Token
  | [] => []
  | parts => .word keyword :: [.comma].intercalate parts

theorem clauseTokens_nil (keyword : String) : clauseTokens keyword [] = [] := rfl

theorem clauseTokens_cons (keyword : String) (part : List Token) (parts : List (List Token)) :
    clauseTokens keyword (part :: parts) =
      .word keyword :: [.comma].intercalate (part :: parts) := rfl

theorem tokensFrom_clause {α : Type} (text : α → String) (parts : α → List Token)
    (hpart : ∀ a rest, EndsWord rest →
      tokensFrom [] ((text a).toList ++ rest) = parts a ++ tokensFrom [] rest)
    {keyword : String} (hk : IsWord keyword) (as : List α) {rest : List Char}
    (h : EndsWord rest) :
    tokensFrom [] ((Update.clause keyword (as.map text)).toList ++ rest) =
      clauseTokens keyword (as.map parts) ++ tokensFrom [] rest := by
  cases as with
  | nil => rfl
  | cons a as =>
    have hcomma : ", ".toList = [',', ' '] := rfl
    have hspace : " ".toList = [' '] := rfl
    have hclause : Update.clause keyword ((a :: as).map text) =
        keyword ++ " " ++ ", ".intercalate ((a :: as).map text) := rfl
    rw [hclause, String.toList_append, String.toList_append, String.toList_intercalate, hcomma,
      hspace, List.map_map]
    simp only [List.append_assoc, List.cons_append, List.nil_append]
    rw [tokensFrom_word hk (endsWord_cons space_not_letter _), tokensFrom_space]
    exact congrArg _ (tokensFrom_joined hpart (a :: as) h)

theorem removal?_clause (ns : List String) :
    removal? (clauseTokens "REMOVE" (ns.map fun n => [.word n])) = some ns := by
  cases ns with
  | nil => rfl
  | cons n ns =>
    have hnames := names?_joined (n :: ns) (by simp) endsParts_nil
    rw [List.append_nil, List.map_cons] at hnames
    rw [List.map_cons, clauseTokens_cons, removal?, hnames]

theorem endsParts_removal (ns : List String) :
    EndsParts (clauseTokens "REMOVE" (ns.map fun n => [.word n])) := by
  cases ns <;> simp [EndsParts, clauseTokens]

/-- A text is read by its two clauses. -/
theorem read?_of_tokens {text : String} {as : List (String × String)} {ns : List String}
    (h : tokens text = clauseTokens "SET" (as.map assignmentTokens) ++
      clauseTokens "REMOVE" (ns.map fun n => [.word n])) :
    read? text = some ⟨as, ns⟩ := by
  have hremoval := removal?_clause ns
  rw [read?, h]
  cases as with
  | nil =>
    -- Without assignments the text begins with the second clause, or is blank.
    cases ns with
    | nil => rfl
    | cons n ns =>
      rw [List.map_cons, clauseTokens_cons] at hremoval ⊢
      rw [List.map_nil, clauseTokens_nil, List.nil_append]
      generalize [Token.comma].intercalate _ = ts at hremoval ⊢
      simp [hremoval]
  | cons a as =>
    have hassigned := assignments?_joined (a :: as) (by simp) (endsParts_removal ns)
    rw [List.map_cons] at hassigned ⊢
    rw [clauseTokens_cons, List.cons_append]
    generalize [Token.comma].intercalate _ ++ _ = ts at hassigned ⊢
    simp [hassigned, hremoval]

end UpdateExpression

/-! ### Updates -/

namespace Update

open UpdateExpression

theorem isWord_set : IsWord "SET" := ⟨by decide, by simp [isLetter]⟩

theorem isWord_remove : IsWord "REMOVE" := ⟨by decide, by simp [isLetter]⟩

theorem Numbered.isWord_nameRef (f : Numbered) : IsWord f.nameRef :=
  isWord_numbered (by simp [isLetter]) f.index

theorem Numbered.isWord_valueRef (f : Numbered) : IsWord f.valueRef :=
  isWord_numbered (by simp [isLetter]) f.index

/-- A field and its value, as they stand in the text. -/
def Numbered.assignment (f : Numbered) : String × String := (f.nameRef, f.valueRef)

theorem tokens_expression (u : Update) :
    tokens u.expression =
      clauseTokens "SET" ((u.assigned.map Numbered.assignment).map assignmentTokens) ++
        clauseTokens "REMOVE" ((u.removed.map Numbered.nameRef).map fun n => [.word n]) := by
  have hspace : " ".toList = [' '] := rfl
  have hset := tokensFrom_clause (fun f : Numbered => assignmentText f.assignment)
    (fun f => assignmentTokens f.assignment)
    (fun f rest h => tokensFrom_assignment f.isWord_nameRef f.isWord_valueRef h)
    isWord_set u.assigned (endsWord_cons space_not_letter u.removeClause.toList)
  have hremove := tokensFrom_clause Numbered.nameRef (fun f => [.word f.nameRef])
    (fun f rest h => tokensFrom_word f.isWord_nameRef h) isWord_remove u.removed endsWord_nil
  rw [List.append_nil] at hremove
  rw [tokens, expression, String.toList_append, String.toList_append, String.toList_append, hspace]
  simp only [List.append_assoc, List.cons_append, List.nil_append, tokensFrom_space]
  rw [List.map_map, List.map_map]
  refine hset.trans (congrArg _ ?_)
  rw [tokensFrom_space]
  exact hremove.trans (List.append_nil _)

/-- The text of an update reads as what it was written from. -/
theorem read?_expression (u : Update) :
    read? u.expression =
      some ⟨u.assigned.map Numbered.assignment, u.removed.map Numbered.nameRef⟩ :=
  read?_of_tokens u.tokens_expression

end Update

end ItemStore
