import Mathlib.Data.List.Basic

/-!
# Quoted strings

A value is written between two quotes, with an escape symbol in front of every quote and every
escape symbol in it (`escape`). `Quotes` says which texts stand between quotes for a value: any
symbol but these two stands for itself, and after an escape symbol every symbol does. `read` reads
such a text up to the first quote that is not escaped.

`read_eq_some_iff` is the correctness of `read`: it finds the one way to take a quoted value off the
front. `quotes_escape` says that escaping writes a text for the value, so whatever comes behind the
closing quote, the value is read back and nothing of it is taken for more.
-/

set_option autoImplicit false
set_option relaxedAutoImplicit false

namespace ChatServer.QuotedString

variable {Symbol : Type*} {escapeSymbol quote : Symbol}

/-- The text between two quotes stands for the value. -/
inductive Quotes (escapeSymbol quote : Symbol) : List Symbol → List Symbol → Prop
  | nil : Quotes escapeSymbol quote [] []
  | plain (symbol : Symbol) (body value : List Symbol) (hescape : symbol ≠ escapeSymbol)
      (hquote : symbol ≠ quote) (hrest : Quotes escapeSymbol quote body value) :
      Quotes escapeSymbol quote (symbol :: body) (symbol :: value)
  | escaped (symbol : Symbol) (body value : List Symbol)
      (hrest : Quotes escapeSymbol quote body value) :
      Quotes escapeSymbol quote (escapeSymbol :: symbol :: body) (symbol :: value)

variable [DecidableEq Symbol]

/-- The value with an escape symbol in front of every quote and every escape symbol. -/
def escape (escapeSymbol quote : Symbol) (value : List Symbol) : List Symbol :=
  value.flatMap fun symbol ↦
    if symbol = escapeSymbol ∨ symbol = quote then [escapeSymbol, symbol] else [symbol]

/-- Reads up to the first quote that is not escaped: the value, and what is behind the quote. -/
def read (escapeSymbol quote : Symbol) : List Symbol → Option (List Symbol × List Symbol)
  | [] => none
  | symbol :: rest =>
    if symbol = escapeSymbol then
      match rest with
      | [] => none
      | literal :: later =>
        (read escapeSymbol quote later).map fun found ↦ (literal :: found.1, found.2)
    else if symbol = quote then some ([], rest)
    else (read escapeSymbol quote rest).map fun found ↦ (symbol :: found.1, found.2)

/-! ### Reading -/

theorem read_quote (hne : escapeSymbol ≠ quote) (rest : List Symbol) :
    read escapeSymbol quote (quote :: rest) = some ([], rest) := by
  unfold read
  rw [if_neg hne.symm, if_pos rfl]

theorem read_plain {symbol : Symbol} (hescape : symbol ≠ escapeSymbol) (hquote : symbol ≠ quote)
    (rest : List Symbol) :
    read escapeSymbol quote (symbol :: rest) =
      (read escapeSymbol quote rest).map fun found ↦ (symbol :: found.1, found.2) := by
  rw [read.eq_def]
  dsimp only
  rw [if_neg hescape, if_neg hquote]

theorem read_escaped (symbol : Symbol) (rest : List Symbol) :
    read escapeSymbol quote (escapeSymbol :: symbol :: rest) =
      (read escapeSymbol quote rest).map fun found ↦ (symbol :: found.1, found.2) := by
  rw [read, if_pos rfl]

/-- A text that stands for a value is read as that value. -/
theorem Quotes.read_append (hne : escapeSymbol ≠ quote) {body value : List Symbol}
    (hquotes : Quotes escapeSymbol quote body value) (rest : List Symbol) :
    read escapeSymbol quote (body ++ quote :: rest) = some (value, rest) := by
  induction hquotes with
  | nil => exact read_quote hne rest
  | plain symbol body value hescape hquote _ ih =>
    rw [List.cons_append, read_plain hescape hquote, ih, Option.map_some]
  | escaped symbol body value _ ih =>
    rw [List.cons_append, List.cons_append, read_escaped, ih, Option.map_some]

/-- What is read is the text of a value, up to the quote that closes it. -/
theorem exists_of_read {input value rest : List Symbol}
    (hread : read escapeSymbol quote input = some (value, rest)) :
    ∃ body, Quotes escapeSymbol quote body value ∧ input = body ++ quote :: rest := by
  induction input using read.induct escapeSymbol quote generalizing value with
  | case1 => cases hread
  | case2 =>
    rw [read, if_pos rfl] at hread
    cases hread
  | case3 literal later ih =>
    rw [read_escaped] at hread
    obtain ⟨found, hfound, hsame⟩ := Option.map_eq_some_iff.mp hread
    obtain ⟨rfl, rfl⟩ := Prod.mk.inj hsame
    obtain ⟨body, hquotes, rfl⟩ := ih hfound
    exact ⟨_, .escaped literal body found.1 hquotes, rfl⟩
  | case4 later hne =>
    rw [read_quote (Ne.symm hne)] at hread
    obtain ⟨rfl, rfl⟩ := Prod.mk.inj (Option.some.inj hread)
    exact ⟨[], .nil, rfl⟩
  | case5 symbol later hescape hquote ih =>
    rw [read_plain hescape hquote] at hread
    obtain ⟨found, hfound, hsame⟩ := Option.map_eq_some_iff.mp hread
    obtain ⟨rfl, rfl⟩ := Prod.mk.inj hsame
    obtain ⟨body, hquotes, rfl⟩ := ih hfound
    exact ⟨_, .plain symbol body found.1 hescape hquote hquotes, rfl⟩

theorem read_eq_some_iff (hne : escapeSymbol ≠ quote) {input value rest : List Symbol} :
    read escapeSymbol quote input = some (value, rest) ↔
      ∃ body, Quotes escapeSymbol quote body value ∧ input = body ++ quote :: rest := by
  refine ⟨exists_of_read, ?_⟩
  rintro ⟨body, hquotes, rfl⟩
  exact hquotes.read_append hne rest

/-! ### Escaping -/

theorem escape_cons (symbol : Symbol) (value : List Symbol) :
    escape escapeSymbol quote (symbol :: value) =
      (if symbol = escapeSymbol ∨ symbol = quote then [escapeSymbol, symbol] else [symbol]) ++
        escape escapeSymbol quote value :=
  List.flatMap_cons

/-- Escaping writes a text that stands for the value. -/
theorem quotes_escape (value : List Symbol) :
    Quotes escapeSymbol quote (escape escapeSymbol quote value) value := by
  induction value with
  | nil => exact .nil
  | cons symbol value ih =>
    rw [escape_cons]
    split_ifs with hspecial
    · exact .escaped symbol _ value ih
    · rw [not_or] at hspecial
      exact .plain symbol _ value hspecial.1 hspecial.2 ih

/-- Escaping adds escape symbols and nothing else. -/
theorem mem_of_mem_escape {value : List Symbol} {symbol : Symbol}
    (hmem : symbol ∈ escape escapeSymbol quote value) : symbol ∈ value ∨ symbol = escapeSymbol := by
  obtain ⟨original, horiginal, hsymbol⟩ := List.mem_flatMap.mp hmem
  split_ifs at hsymbol
  · rcases List.mem_cons.mp hsymbol with hescape | hsame
    · exact Or.inr hescape
    · exact Or.inl (List.mem_singleton.mp hsame ▸ horiginal)
  · exact Or.inl (List.mem_singleton.mp hsymbol ▸ horiginal)

end ChatServer.QuotedString
