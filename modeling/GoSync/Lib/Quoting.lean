import Mathlib.Algebra.Order.Group.Nat
import Mathlib.Algebra.Ring.Nat
import Mathlib.Data.List.Basic

/-!
# Quoted texts

A text between two quotes, in which a quote of its own is doubled, as SQL has it for literals and for
identifiers. Identifiers have a longest length; `clip` is what is left of a longer one.
-/

namespace Quoting

def double (quote : Char) (text : List Char) : List Char :=
  text.flatMap fun c => if c = quote then [quote, quote] else [c]

def enclose (quote : Char) (text : List Char) : List Char :=
  quote :: double quote text ++ [quote]

def readQuoted (quote : Char) : List Char → Option (List Char × List Char)
  | [] => none
  | [c] => if c = quote then some ([], []) else none
  | c :: d :: rest =>
      if c ≠ quote then
        (readQuoted quote (d :: rest)).map fun (text, rest) => (c :: text, rest)
      else if d = quote then
        (readQuoted quote rest).map fun (text, rest) => (quote :: text, rest)
      else
        some ([], d :: rest)

variable {quote : Char}

theorem double_cons (quote c : Char) (text : List Char) :
    double quote (c :: text) = (if c = quote then [quote, quote] else [c]) ++ double quote text :=
  List.flatMap_cons

theorem readQuoted_double (text : List Char) {rest : List Char} (hrest : rest.head? ≠ some quote) :
    readQuoted quote (double quote text ++ quote :: rest) = some (text, rest) := by
  induction text with
  | nil =>
      cases rest with
      | nil => simp [double, readQuoted]
      | cons next rest =>
          have hnext : next ≠ quote := fun heq => hrest (congrArg some heq)
          simp [double, readQuoted, hnext]
  | cons c text ih =>
      rw [double_cons]
      by_cases hc : c = quote
      · subst hc
        simp only [if_true, List.cons_append, List.nil_append, readQuoted, ne_eq, not_true_eq_false,
          if_false, ih, Option.map_some]
      · rw [if_neg hc, List.singleton_append, List.cons_append]
        -- Some character follows, at least the closing quote.
        obtain ⟨next, more, hmore⟩ : ∃ next more, double quote text ++ quote :: rest = next :: more :=
          List.exists_cons_of_ne_nil (by simp)
        rw [hmore] at ih ⊢
        simp only [readQuoted, ne_eq, hc, not_false_eq_true, if_true, ih, Option.map_some]

def clip : Nat → List Char → List Char
  | _, [] => []
  | room, c :: rest => if c.utf8Size ≤ room then c :: clip (room - c.utf8Size) rest else []

theorem sum_clip_le (room : Nat) (text : List Char) :
    ((clip room text).map Char.utf8Size).sum ≤ room := by
  induction text generalizing room with
  | nil => exact Nat.zero_le _
  | cons c text ih =>
      rw [clip]
      split_ifs with hfits
      · have hrest := ih (room - c.utf8Size)
        rw [List.map_cons, List.sum_cons]
        omega
      · exact Nat.zero_le _

theorem clip_eq_self_iff {room : Nat} {text : List Char} :
    clip room text = text ↔ (text.map Char.utf8Size).sum ≤ room := by
  constructor
  · intro hsame
    rw [← hsame]
    exact sum_clip_le room text
  · intro hfits
    induction text generalizing room with
    | nil => rfl
    | cons c text ih =>
        rw [List.map_cons, List.sum_cons] at hfits
        rw [clip, if_pos (by omega), ih (by omega)]

@[simp]
theorem clip_clip (room : Nat) (text : List Char) : clip room (clip room text) = clip room text :=
  clip_eq_self_iff.mpr (sum_clip_le room text)

end Quoting
