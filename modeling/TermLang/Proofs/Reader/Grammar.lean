import TermLang.Alphabet
import TermLang.Number.Layout
import TermLang.Number.Whole
import TermLang.Term

/-!
# The grammar of sources

Which texts are sources, and which terms they stand for, said without a reader. Atoms are given by
their spellings. A sequence of items keeps track of one thing only, whether the item before it was
an atom with nothing in between: then a blank or a bracket has to follow, since two atoms that touch
are not two atoms. Inside a pair of brackets stands a sequence that starts afresh.

A numeral stands for a decimal; it is an atom when some double is near that decimal. No other atom
depends on arithmetic.
-/

namespace TermLang.Grammar

/-- Every character may stand in a word. -/
def AllWord (text : List Char) : Prop := ∀ c ∈ text, isWordChar c = true

/-- Whether all characters of a text may stand in a word can be decided by looking at each of them.
-/
instance (text : List Char) : Decidable (AllWord text) :=
  decidable_of_iff (text.all isWordChar = true) List.all_eq_true

/-- Every character is a digit. -/
def AllDigits (text : List Char) : Prop := ∀ c ∈ text, isDecimalDigit c = true

/-- A decimal in digits: a minus sign or none, at least one digit, and perhaps a point with any
number of places behind it. -/
inductive Numeral : List Char → Decimal → Prop where
  | whole (negative : Bool) {digits : List Char} (present : digits ≠ []) (only : AllDigits digits) :
      Numeral (Number.signOf negative ++ digits) ⟨negative, Number.digitsValue digits, 0⟩
  | pointed (negative : Bool) {digits places : List Char} (present : digits ≠ [])
      (only : AllDigits digits) (onlyPlaces : AllDigits places) :
      Numeral (Number.signOf negative ++ (digits ++ '.' :: places))
        ⟨negative, Number.digitsValue (digits ++ places), -(places.length : Int)⟩

/-- An atom that is not quoted. -/
inductive Bare : List Char → Term → Prop where
  | number {text : List Char} {decimal : Decimal} {value : Float} (spelled : Numeral text decimal)
      (finite : decimal.toFloat? = some value) : Bare text (.number value)
  | var {first : Char} {rest : List Char} (capital : isCapitalLetter first = true)
      (word : AllWord rest) : Bare (first :: rest) (.var (String.ofList (first :: rest)))
  | affirmed : Bare ['t', 'r', 'u', 'e'] (.bool true)
  | denied : Bare ['f', 'a', 'l', 's', 'e'] (.bool false)
  | str {first : Char} {rest : List Char} (small : isSmallLetter first = true) (word : AllWord rest)
      (notAffirmed : first :: rest ≠ ['t', 'r', 'u', 'e'])
      (notDenied : first :: rest ≠ ['f', 'a', 'l', 's', 'e']) :
      Bare (first :: rest) (.str (String.ofList (first :: rest)))
  | wildcard {rest : List Char} (word : AllWord rest) :
      Bare ('_' :: rest) (.wildcard (String.ofList ('_' :: rest)))
  | keyword {rest : List Char} (present : rest ≠ []) (word : AllWord rest) :
      Bare ('.' :: rest) (.keyword (String.ofList ('.' :: rest)))
  | binaryOp {symbol : String} (known : symbol ∈ binaryOperators) :
      Bare symbol.toList (.binaryOp symbol)
  | unaryOp : Bare negation.toList (.unaryOp negation)

/-- The spelling of an atom. Between quotes anything may stand but a quote. -/
inductive Atom : List Char → Term → Prop where
  | quoted {text : List Char} (unquoted : '"' ∉ text) :
      Atom ('"' :: (text ++ ['"'])) (.str (String.ofList text))
  | bare {text : List Char} {term : Term} (spelled : Bare text term) : Atom text term

/-- The items of a list, `touching` an atom in front of them or not. -/
inductive Items : (touching : Bool) → List Char → List Term → Prop where
  | done (touching : Bool) : Items touching [] []
  | blank (touching : Bool) {c : Char} {source : List Char} {terms : List Term}
      (divides : isDivider c = true) (rest : Items false source terms) :
      Items touching (c :: source) terms
  | atom {text source : List Char} {term : Term} {terms : List Term} (spelled : Atom text term)
      (rest : Items true source terms) : Items false (text ++ source) (term :: terms)
  | list (touching : Bool) {inside source : List Char} {items terms : List Term}
      (body : Items false inside items) (rest : Items false source terms) :
      Items touching ('(' :: (inside ++ ')' :: source)) (.list items :: terms)

/-- A program: lists, and blanks around them. -/
inductive Program : List Char → List Term → Prop where
  | done : Program [] []
  | blank {c : Char} {source : List Char} {forms : List Term} (divides : isDivider c = true)
      (rest : Program source forms) : Program (c :: source) forms
  | list {inside source : List Char} {items forms : List Term} (body : Items false inside items)
      (rest : Program source forms) :
      Program ('(' :: (inside ++ ')' :: source)) (.list items :: forms)

/-- What may touch an atom may also stand apart from one. -/
theorem Items.apart {source : List Char} {terms : List Term} (items : Items true source terms) :
    Items false source terms := by
  cases items with
  | done => exact .done false
  | blank _ divides rest => exact .blank false divides rest
  | list _ body rest => exact .list false body rest

/-- The forms of a program are items. -/
theorem Program.items {source : List Char} {forms : List Term} (program : Program source forms) :
    Items false source forms := by
  induction program with
  | done => exact .done false
  | blank divides rest inductionHypothesis => exact .blank false divides inductionHypothesis
  | list body rest inductionHypothesis => exact .list false body inductionHypothesis

/-- All forms of a program are lists. -/
theorem Program.isList {source : List Char} {forms : List Term}
    (program : Program source forms) : ∀ form ∈ forms, form.isList = true := by
  induction program with
  | done => simp
  | blank _ rest inductionHypothesis => exact inductionHypothesis
  | list body rest inductionHypothesis => exact List.forall_mem_cons.mpr ⟨rfl, inductionHypothesis⟩

end TermLang.Grammar
