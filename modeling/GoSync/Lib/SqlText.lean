import GoSync.Lib.Quoting
import Mathlib.Data.Nat.Digits.Defs

/-!
# Reading SQL texts

The part of PostgreSQL's lexer without literals and comments: key words and plain identifiers, quoted
identifiers, parameters, integers, casts, operators and punctuation. A text with anything else in it is not
read at all.

A piece of a text is read on its own; what may follow it is a condition on the next character.
-/

namespace SqlText

inductive Token where
  /-- A key word or plain identifier, in lower case. -/
  | word (text : List Char)
  | quoted (name : List Char)
  | parameter (number : Nat)
  | integer (value : Nat)
  | typecast
  | operator (text : List Char)
  | punctuation (c : Char)
  deriving DecidableEq, Repr

inductive Mode where
  | blank
  | word (text : List Char)
  | integer (digits : List Char)
  | dollar
  | parameter (digits : List Char)
  | quoted (text : List Char)
  /-- After a quote in a quoted identifier: its end, or the first of two. -/
  | quote (text : List Char)
  | colon
  | dot
  | operator (text : List Char)
  deriving DecidableEq, Repr

def isBlank (c : Char) : Bool :=
  c = ' ' ∨ c = '\t' ∨ c = '\n' ∨ c = '\r'

def isWordStart (c : Char) : Bool :=
  c.isAlpha ∨ c = '_' ∨ c.toNat ≥ 128

def isWordRest (c : Char) : Bool :=
  isWordStart c ∨ c.isDigit ∨ c = '$'

def isPunctuation (c : Char) : Bool :=
  c = '(' ∨ c = ')' ∨ c = ',' ∨ c = '[' ∨ c = ']'

def isOperator (c : Char) : Bool :=
  "~!@#^&|?+-*/%<>=".toList.contains c

def maxName : Nat := 63

def decimal (digits : List Char) : Nat :=
  Nat.ofDigitChars 10 digits 0

def Mode.finish : Mode → Option (List Token)
  | .blank => some []
  | .word text => some [.word (Quoting.clip maxName (text.map Char.toLower))]
  | .integer digits => some [.integer (decimal digits)]
  | .parameter digits => some [.parameter (decimal digits)]
  | .quote [] => none
  | .quote text => some [.quoted (Quoting.clip maxName text)]
  | .dot => some [.punctuation '.']
  | .operator text => some [.operator text]
  | .dollar | .quoted _ | .colon => none

def start (c : Char) : Option (List Token × Mode) :=
  if isBlank c then some ([], .blank)
  else if isWordStart c then some ([], .word [c])
  else if c.isDigit then some ([], .integer [c])
  else if c = '"' then some ([], .quoted [])
  else if c = '$' then some ([], .dollar)
  else if c = ':' then some ([], .colon)
  else if c = '.' then some ([], .dot)
  else if isPunctuation c then some ([.punctuation c], .blank)
  else if isOperator c then some ([], .operator [c])
  else none

def close (mode : Mode) (c : Char) : Option (List Token × Mode) := do
  let ended ← mode.finish
  let (tokens, next) ← start c
  some (ended ++ tokens, next)

def step : Mode → Char → Option (List Token × Mode)
  | .blank, c => start c
  | .word text, c => if isWordRest c then some ([], .word (text ++ [c])) else close (.word text) c
  | .integer digits, c =>
      if c.isDigit then some ([], .integer (digits ++ [c]))
      else if isWordStart c ∨ c = '.' then none
      else close (.integer digits) c
  | .dollar, c => if c.isDigit then some ([], .parameter [c]) else none
  | .parameter digits, c =>
      if c.isDigit then some ([], .parameter (digits ++ [c]))
      else if isWordStart c then none
      else close (.parameter digits) c
  | .quoted text, c => if c = '"' then some ([], .quote text) else some ([], .quoted (text ++ [c]))
  | .quote text, c => if c = '"' then some ([], .quoted (text ++ [c])) else close (.quote text) c
  | .colon, c => if c = ':' then some ([.typecast], .blank) else none
  | .dot, c => if c.isDigit ∨ c = '.' then none else close .dot c
  | .operator text, c =>
      if isOperator c then
        -- Two dashes, or a slash and a star, begin a comment.
        if text.getLast? = some '-' ∧ c = '-' ∨ text.getLast? = some '/' ∧ c = '*' then none
        else some ([], .operator (text ++ [c]))
      else
        close (.operator text) c

def scan : Mode → List Char → Option (List Token × Mode)
  | mode, [] => some ([], mode)
  | mode, c :: rest => do
      let (tokens, next) ← step mode c
      let (more, last) ← scan next rest
      some (tokens ++ more, last)

def lex (text : List Char) : Option (List Token) := do
  let (tokens, mode) ← scan .blank text
  let ended ← mode.finish
  some (tokens ++ ended)

section Scanning

variable {mode next last : Mode} {first second text : List Char} {tokens more : List Token}

theorem scan_append (hfirst : scan mode first = some (tokens, next))
    (hsecond : scan next second = some (more, last)) :
    scan mode (first ++ second) = some (tokens ++ more, last) := by
  induction first generalizing mode tokens with
  | nil =>
      obtain ⟨rfl, rfl⟩ := Prod.mk.inj (Option.some.inj hfirst)
      exact hsecond
  | cons c first ih =>
      simp only [scan, Option.bind_eq_bind, Option.bind_eq_some_iff, Option.some.injEq, Prod.mk.injEq,
        Prod.exists] at hfirst
      obtain ⟨one, middle, hstep, rest, final, hrest, rfl, rfl⟩ := hfirst
      rw [List.cons_append, scan, hstep]
      simp only [Option.bind_eq_bind, Option.bind_some]
      rw [ih hrest]
      simp

/-- The text begins with `first` and is read from a blank to these tokens, where a character with `Next`
follows. -/
def Piece (first : Char) (Next : Char → Prop) (text : List Char) (tokens : List Token) : Prop :=
  text.head? = some first ∧ ∃ before mode after, scan .blank text = some (before, mode)
    ∧ mode.finish = some after
    ∧ (∀ c, Next c → step mode c = (start c).map fun (one, next) => (after ++ one, next))
    ∧ tokens = before ++ after

variable {a b : Char} {Next Following : Char → Prop}

theorem Piece.lex_eq (h : Piece a Next text tokens) : lex text = some tokens := by
  obtain ⟨-, before, mode, after, hscan, hfinish, -, rfl⟩ := h
  simp [lex, hscan, hfinish]

theorem Piece.mono (h : Piece a Next text tokens) (hnext : ∀ c, Following c → Next c) :
    Piece a Following text tokens := by
  obtain ⟨hhead, before, mode, after, hscan, hfinish, hclose, htokens⟩ := h
  exact ⟨hhead, before, mode, after, hscan, hfinish, fun c hc => hclose c (hnext c hc), htokens⟩

theorem Piece.append (hfirst : Piece a Next first tokens) (hsecond : Piece b Following second more)
    (hnext : Next b) : Piece a Following (first ++ second) (tokens ++ more) := by
  obtain ⟨hhead, before, mode, after, hscan, -, hclose, rfl⟩ := hfirst
  obtain ⟨hhead', before', mode', after', hscan', hfinish', hclose', rfl⟩ := hsecond
  refine ⟨?_, before ++ (after ++ before'), mode', after', scan_append hscan ?_, hfinish', hclose', ?_⟩
  · rw [List.head?_append, hhead, Option.some_or]
  · cases second with
    | nil => cases hhead'
    | cons c second =>
        cases hhead'
        simp only [scan, step, Option.bind_eq_bind, Option.bind_eq_some_iff, Option.some.injEq,
          Prod.mk.injEq, Prod.exists] at hscan'
        obtain ⟨one, middle, hstart, rest, final, hrest, rfl, rfl⟩ := hscan'
        simp [scan, hclose b hnext, hstart, hrest]
  · simp only [List.append_assoc]

theorem Piece.join {α : Type} {items : List α} {textOf : α → List Char} {tokensOf : α → List Token}
    {separator : List Char} {between : List Token}
    (hitems : ∀ item ∈ items, Piece a Next (textOf item) (tokensOf item))
    (hseparator : Piece b (fun _ => True) separator between) (hnext : Next b) (hne : items ≠ []) :
    Piece a Next (separator.intercalate (items.map textOf)) (between.intercalate (items.map tokensOf)) := by
  induction items with
  | nil => exact absurd rfl hne
  | cons item items ih =>
      obtain ⟨hitem, hrest⟩ := List.forall_mem_cons.mp hitems
      cases items with
      | nil => simpa [List.intercalate] using hitem
      | cons other items =>
          have hjoined := ih hrest (List.cons_ne_nil _ _)
          have hwhole := hitem.append (hseparator.append hjoined trivial) hnext
          simpa [List.intercalate] using hwhole

end Scanning

section Pieces

theorem Piece.of_blank {text : List Char} {a : Char} {tokens : List Token}
    (h : text.head? = some a ∧ scan .blank text = some (tokens, .blank)) :
    Piece a (fun _ => True) text tokens := by
  refine ⟨h.1, tokens, .blank, [], h.2, rfl, fun c _ => ?_, (List.append_nil _).symm⟩
  rw [step]
  cases start c with
  | none => rfl
  | some result => rfl

theorem close_eq {mode : Mode} {after : List Token} (hfinish : mode.finish = some after) (c : Char) :
    close mode c = (start c).map fun (one, next) => (after ++ one, next) := by
  rw [close, hfinish]
  cases start c with
  | none => rfl
  | some result => rfl

theorem scan_double (name text : List Char) :
    scan (.quoted text) (Quoting.double '"' name) = some ([], .quoted (text ++ name)) := by
  induction name generalizing text with
  | nil => simp [Quoting.double, scan]
  | cons c name ih =>
      rw [Quoting.double_cons]
      by_cases hc : c = '"'
      · subst hc
        simp [scan, step, ih]
      · simp [scan, step, hc, ih]

theorem Piece.enclose {name : List Char} (hne : name ≠ []) (hfits : Quoting.clip maxName name = name) :
    Piece '"' (· ≠ '"') (Quoting.enclose '"' name) [.quoted name] := by
  have hfinish : (Mode.quote name).finish = some [.quoted name] := by
    cases name with
    | nil => exact absurd rfl hne
    | cons c name => simp [Mode.finish, hfits]
  refine ⟨rfl, [], .quote name, [.quoted name], ?_, hfinish, ?_, rfl⟩
  · have hopen : scan .blank ['"'] = some ([], .quoted []) := by decide
    have hclose : scan (.quoted name) ['"'] = some ([], .quote name) := by simp [scan, step]
    exact scan_append hopen (scan_append (scan_double name []) hclose)
  · intro c hc
    rw [step, if_neg hc, close_eq hfinish]

theorem scan_digits {digits text : List Char} (hdigits : ∀ c ∈ digits, c.isDigit) :
    scan (.parameter text) digits = some ([], .parameter (text ++ digits)) := by
  induction digits generalizing text with
  | nil => simp [scan]
  | cons c digits ih =>
      obtain ⟨hc, hrest⟩ := List.forall_mem_cons.mp hdigits
      simp [scan, step, hc, ih hrest]

/-- A parameter is read back where a colon follows. -/
theorem Piece.parameter (number : Nat) :
    Piece '$' (· = ':') ('$' :: Nat.toDigits 10 number) [.parameter number] := by
  have hdecimal : decimal (Nat.toDigits 10 number) = number :=
    Nat.ofDigitChars_toDigits (by decide) (by decide)
  have hdigits : ∀ c ∈ Nat.toDigits 10 number, c.isDigit := fun c hc =>
    Nat.isDigit_of_mem_toDigits (by decide) (by decide) hc
  have hfinish : (Mode.parameter (Nat.toDigits 10 number)).finish = some [.parameter number] := by
    rw [Mode.finish, hdecimal]
  refine ⟨rfl, [], .parameter (Nat.toDigits 10 number), [.parameter number], ?_, hfinish, ?_, rfl⟩
  · have hdollar : scan .blank ['$'] = some ([], .dollar) := by decide
    have hnumber : scan .dollar (Nat.toDigits 10 number)
        = some ([], .parameter (Nat.toDigits 10 number)) := by
      -- The first digit makes the parameter, the others continue it.
      obtain ⟨digit, rest, hrest⟩ := List.exists_cons_of_ne_nil (Nat.toDigits_ne_nil (b := 10) (n := number))
      rw [hrest] at hdigits ⊢
      obtain ⟨hdigit, hmore⟩ := List.forall_mem_cons.mp hdigits
      simp [scan, step, hdigit, scan_digits hmore]
    exact scan_append hdollar hnumber
  · rintro c rfl
    rw [step, if_neg (by decide), if_neg (by decide), close_eq hfinish]

theorem Piece.of_word {text word : List Char} {a : Char} {tokens : List Token}
    (h : text.head? = some a ∧ scan .blank text = some (tokens, .word word)) :
    Piece a (fun c => isWordRest c = false) text
      (tokens ++ [.word (Quoting.clip maxName (word.map Char.toLower))]) := by
  refine ⟨h.1, tokens, .word word, _, h.2, rfl, fun c hc => ?_, rfl⟩
  rw [step, hc, if_neg Bool.false_ne_true]
  exact close_eq rfl c

end Pieces

section Readers

def parameters : List Token → List Nat
  | [] => []
  | .parameter number :: rest => number :: parameters rest
  | _ :: rest => parameters rest

def quotedNames : List Token → List (List Char)
  | [] => []
  | .quoted name :: rest => name :: quotedNames rest
  | _ :: rest => quotedNames rest

def equals : List Token := [.operator ['=']]

def notDistinct : List Token :=
  [.word "is".toList, .word "not".toList, .word "distinct".toList, .word "from".toList]

def isComparator (token : Token) : Bool :=
  token ∈ equals ∨ token ∈ notDistinct

def compared (tokens : List Token) : Option Nat :=
  match tokens.dropWhile isComparator with
  | .parameter number :: _ =>
      if tokens.takeWhile isComparator = equals ∨ tokens.takeWhile isComparator = notDistinct then some number
      else none
  | _ => none

def uses : List Token → List (List Char × Nat)
  | [] => []
  | .quoted name :: rest => ((compared rest).map fun number => (name, number)).toList ++ uses rest
  | _ :: rest => uses rest

def listed (tokens : List Token) : List (List Char) :=
  quotedNames ((tokens.dropWhile (· ≠ .punctuation '(')).takeWhile (· ≠ .punctuation ')'))

/-- Which name goes with which parameter: by position in an `INSERT`, by assignment or comparison
otherwise. -/
def bindings (tokens : List Token) : List (List Char × Nat) :=
  if tokens.head? = some (.word "insert".toList) then (listed tokens).zip (parameters tokens)
  else uses tokens

variable {tokens rest : List Token} {token : Token}

theorem parameters_append (tokens rest : List Token) :
    parameters (tokens ++ rest) = parameters tokens ++ parameters rest := by
  induction tokens with
  | nil => rfl
  | cons token tokens ih => cases token <;> simp [parameters, ih]

theorem quotedNames_append (tokens rest : List Token) :
    quotedNames (tokens ++ rest) = quotedNames tokens ++ quotedNames rest := by
  induction tokens with
  | nil => rfl
  | cons token tokens ih => cases token <;> simp [quotedNames, ih]

theorem compared_none (hparameters : parameters tokens = []) (htoken : isComparator token = false)
    (hnumber : ∀ number, token ≠ .parameter number) : compared (tokens ++ token :: rest) = none := by
  have hstop : ∀ number after, (tokens ++ token :: rest).dropWhile isComparator
      ≠ .parameter number :: after := by
    intro number after
    induction tokens with
    | nil =>
        rw [List.nil_append, List.dropWhile_cons_of_neg (by simp [htoken])]
        exact fun heq => hnumber number (List.cons.inj heq).1
    | cons first tokens ih =>
        have hrest : parameters tokens = [] := by
          cases first <;> simp_all [parameters]
        rw [List.cons_append]
        by_cases hfirst : isComparator first = true
        · rw [List.dropWhile_cons_of_pos hfirst]
          exact ih hrest
        · rw [List.dropWhile_cons_of_neg hfirst]
          intro heq
          rw [(List.cons.inj heq).1] at hparameters
          exact absurd hparameters (List.cons_ne_nil _ _)
  unfold compared
  split
  · rename_i number after heq
    exact absurd heq (hstop number after)
  · rfl

theorem uses_append (hparameters : parameters tokens = []) (htoken : isComparator token = false)
    (hnumber : ∀ number, token ≠ .parameter number) :
    uses (tokens ++ token :: rest) = uses (token :: rest) := by
  induction tokens with
  | nil => rfl
  | cons first tokens ih =>
      have hrest : parameters tokens = [] := by
        cases first <;> simp_all [parameters]
      cases first with
      | quoted name =>
          rw [List.cons_append, uses, compared_none hrest htoken hnumber]
          exact ih hrest
      | _ => exact ih hrest

theorem uses_equals (name : List Char) (number : Nat) (rest : List Token) :
    uses (.quoted name :: (equals ++ .parameter number :: rest))
      = (name, number) :: uses rest := by
  have hcompared : compared (equals ++ .parameter number :: rest) = some number := by
    simp [compared, equals, isComparator, notDistinct, List.dropWhile, List.takeWhile]
  rw [uses, hcompared]
  rfl

theorem uses_notDistinct (name : List Char) (number : Nat) (rest : List Token) :
    uses (.quoted name :: (notDistinct ++ .parameter number :: rest))
      = (name, number) :: uses rest := by
  have hcompared : compared (notDistinct ++ .parameter number :: rest) = some number := by
    simp [compared, equals, isComparator, notDistinct, List.dropWhile, List.takeWhile]
  rw [uses, hcompared]
  rfl

end Readers

end SqlText
