import Mathlib.Data.List.TakeWhile
import ChatServer.Core.ConfigLoader
import ChatServer.General.QuotedString

/-!
# The connection string

`db_connector` opens its connection from one string of settings, `keyword='value'` one after
another, into which `make_conninfo` puts the five values of the configuration. libpq takes the
string apart again. It is not part of the repository, so its parser is a parameter, and
`LibpqRules` is what its documentation says of such settings: blanks are skipped in front of a
keyword and on both sides of the `=`, between single quotes a backslash makes the next byte literal,
and the first quote without one ends the value. libpq is given a C string, so the rules speak of
texts without a NUL byte only. `parseConninfo` is a parser of quoted settings that follows them.

`conninfo_parsed` says that nothing in a value can end it or start another setting: a parser that
follows the rules finds the five settings with the values that went in, in this order, and no more.

Not modelled here: the connection itself, and the password that `create` takes from the environment
when the configuration has none.
-/

set_option autoImplicit false
set_option relaxedAutoImplicit false

namespace ChatServer

open QuotedString

/-- `'\\'`. -/
def backslash : UInt8 := 92

/-- `'\''`. -/
def apostrophe : UInt8 := 39

/-- `' '`. -/
def blank : UInt8 := 32

/-! ### `make_conninfo` -/

/-- The lambda `append_escaped`. -/
def appendEscaped (dst src : Bytes) : Bytes :=
  src.foldl
    (fun dst ch ↦ (if ch = backslash ∨ ch = apostrophe then dst ++ [backslash] else dst) ++ [ch])
    dst

/-- `db_connector::make_conninfo`. -/
def makeConninfo (host port dbName user password : Bytes) : Bytes :=
  let conninfo := text "host='"
  let conninfo := appendEscaped conninfo host
  let conninfo := conninfo ++ text "' port='"
  let conninfo := appendEscaped conninfo port
  let conninfo := conninfo ++ text "' dbname='"
  let conninfo := appendEscaped conninfo dbName
  let conninfo := conninfo ++ text "' user='"
  let conninfo := appendEscaped conninfo user
  let conninfo := conninfo ++ text "' password='"
  let conninfo := appendEscaped conninfo password
  conninfo ++ text "'"

theorem appendEscaped_eq (dst src : Bytes) :
    appendEscaped dst src = dst ++ escape backslash apostrophe src := by
  unfold appendEscaped
  induction src generalizing dst with
  | nil => exact (List.append_nil dst).symm
  | cons ch src ih =>
    rw [List.foldl_cons, ih, escape_cons]
    split_ifs
    · rw [List.append_assoc, List.append_assoc, ← List.append_assoc [backslash]]
      rfl
    · rw [List.append_assoc]

/-! ### The rules of libpq -/

/-- A text as a C string has it. -/
def NulFree (value : Bytes) : Prop :=
  (0 : UInt8) ∉ value

instance (value : Bytes) : Decidable (NulFree value) :=
  inferInstanceAs (Decidable ((0 : UInt8) ∉ value))

/-- Nothing but blanks. -/
def Blanks (value : Bytes) : Prop :=
  ∀ byte ∈ value, isSpace byte = true

/-- The keywords that `make_conninfo` writes, all of which libpq knows. -/
def conninfoKeywords : List Bytes :=
  [text "host", text "port", text "dbname", text "user", text "password"]

/-- What the documentation of libpq says of settings with a quoted value; `none` is an error. -/
structure LibpqRules (parse : Bytes → Option (List (Bytes × Bytes))) : Prop where
  nil : parse [] = some []
  skip : ∀ byte rest, isSpace byte = true → NulFree rest → parse (byte :: rest) = parse rest
  setting : ∀ keyword ∈ conninfoKeywords, ∀ before after body value rest, Blanks before →
    Blanks after → Quotes backslash apostrophe body value → NulFree body → NulFree rest →
    (∀ byte ∈ rest.head?, isSpace byte = true) →
    parse (keyword ++
        (before ++ equalsSign :: (after ++ apostrophe :: (body ++ apostrophe :: rest)))) =
      (parse rest).map ((keyword, value) :: ·)

/-! ### A parser of quoted settings -/

/-- A byte of a keyword. -/
def isKeywordByte (byte : UInt8) : Bool :=
  byte ≠ equalsSign && !isSpace byte

/-- Reads a setting with a quoted value, and what is behind the value. -/
def readSetting (input : Bytes) : Option ((Bytes × Bytes) × Bytes) :=
  match (input.dropWhile isKeywordByte).dropWhile isSpace with
  | [] => none
  | sign :: assigned =>
    if sign ≠ equalsSign ∨ ¬ conninfoKeywords.contains (input.takeWhile isKeywordByte) then none
    else
      match assigned.dropWhile isSpace with
      | [] => none
      | opening :: quoted =>
        if opening ≠ apostrophe then none
        else
          (read backslash apostrophe quoted).map fun found ↦
            ((input.takeWhile isKeywordByte, found.1), found.2)

theorem length_readSetting {input rest : Bytes} {setting : Bytes × Bytes}
    (hread : readSetting input = some (setting, rest)) : rest.length < input.length := by
  have hkeyword := List.length_dropWhile_le isKeywordByte input
  unfold readSetting at hread
  split at hread
  · cases hread
  · next sign assigned hsign =>
    have hassigned := List.length_dropWhile_le isSpace (input.dropWhile isKeywordByte)
    rw [hsign, List.length_cons] at hassigned
    split_ifs at hread
    split at hread
    · cases hread
    · next opening quoted hopening =>
      have hquoted := List.length_dropWhile_le isSpace assigned
      rw [hopening, List.length_cons] at hquoted
      split_ifs at hread
      obtain ⟨found, hfound, hsame⟩ := Option.map_eq_some_iff.mp hread
      obtain ⟨-, rfl⟩ := Prod.mk.inj hsame
      obtain ⟨body, -, hbody⟩ := (read_eq_some_iff (by decide)).mp hfound
      have hlength := congrArg List.length hbody
      rw [List.length_append, List.length_cons] at hlength
      omega

/-- Settings with quoted values, one after another. -/
def parseConninfo (input : Bytes) : Option (List (Bytes × Bytes)) :=
  match input with
  | [] => some []
  | byte :: rest =>
    if isSpace byte then parseConninfo rest
    else
      match _hread : readSetting (byte :: rest) with
      | none => none
      | some (setting, later) => (parseConninfo later).map (setting :: ·)
termination_by input.length
decreasing_by
  · exact Nat.lt_succ_self _
  · exact length_readSetting _hread

/-- A keyword has bytes of a keyword only, and at least one. -/
theorem keyword_bytes {keyword : Bytes} (hkeyword : keyword ∈ conninfoKeywords) :
    keyword ≠ [] ∧ ∀ byte ∈ keyword, isKeywordByte byte = true := by
  have hall : ∀ keyword ∈ conninfoKeywords,
      keyword.isEmpty = false ∧ keyword.all isKeywordByte = true := by decide
  obtain ⟨hne, hbytes⟩ := hall keyword hkeyword
  exact ⟨List.isEmpty_eq_false_iff.mp hne, List.all_eq_true.mp hbytes⟩

theorem isSpace_of_isKeywordByte {byte : UInt8} (hbyte : isKeywordByte byte = true) :
    isSpace byte = false := by
  rw [isKeywordByte, Bool.and_eq_true, Bool.not_eq_true'] at hbyte
  exact hbyte.2

/-- A keyword ends at a blank or at the `'='`. -/
theorem exists_keyword_end {before : Bytes} (hbefore : Blanks before) (rest : Bytes) :
    ∃ byte later, before ++ equalsSign :: rest = byte :: later ∧ isKeywordByte byte = false := by
  cases before with
  | nil => exact ⟨equalsSign, rest, rfl, rfl⟩
  | cons byte before =>
    refine ⟨byte, before ++ equalsSign :: rest, rfl, ?_⟩
    rw [isKeywordByte, hbefore byte List.mem_cons_self]
    exact Bool.and_false _

theorem dropWhile_blanks {before : Bytes} (hbefore : Blanks before) {byte : UInt8}
    (hbyte : isSpace byte = false) (rest : Bytes) :
    (before ++ byte :: rest).dropWhile isSpace = byte :: rest := by
  rw [List.dropWhile_append_of_pos hbefore,
    List.dropWhile_cons_of_neg (Bool.not_eq_true _ ▸ hbyte)]

theorem readSetting_eq {keyword before after body value : Bytes}
    (hkeyword : keyword ∈ conninfoKeywords) (hbefore : Blanks before) (hafter : Blanks after)
    (hquotes : Quotes backslash apostrophe body value) (rest : Bytes) :
    readSetting (keyword ++
        (before ++ equalsSign :: (after ++ apostrophe :: (body ++ apostrophe :: rest)))) =
      some ((keyword, value), rest) := by
  obtain ⟨-, hbytes⟩ := keyword_bytes hkeyword
  obtain ⟨byte, later, hstart, hstop⟩ := exists_keyword_end hbefore
    (after ++ apostrophe :: (body ++ apostrophe :: rest))
  have hstop : ¬ isKeywordByte byte = true := Bool.not_eq_true _ ▸ hstop
  have htake : (keyword ++ byte :: later).takeWhile isKeywordByte = keyword := by
    rw [List.takeWhile_append_of_pos hbytes, List.takeWhile_cons_of_neg hstop, List.append_nil]
  have hdrop : (keyword ++ byte :: later).dropWhile isKeywordByte = byte :: later := by
    rw [List.dropWhile_append_of_pos hbytes, List.dropWhile_cons_of_neg hstop]
  unfold readSetting
  rw [hstart, htake, hdrop, ← hstart, dropWhile_blanks hbefore rfl]
  dsimp only
  have hknown : conninfoKeywords.contains keyword = true := List.contains_iff_mem.mpr hkeyword
  rw [if_neg (not_or.mpr ⟨not_not.mpr rfl, not_not.mpr hknown⟩), dropWhile_blanks hafter rfl]
  dsimp only
  rw [if_neg (not_not.mpr rfl), (read_eq_some_iff (by decide)).mpr ⟨body, hquotes, rfl⟩,
    Option.map_some]

/-- The parser follows the rules. -/
theorem libpqRules_parseConninfo : LibpqRules parseConninfo where
  nil := by rw [parseConninfo]
  skip byte rest hbyte _ := by rw [parseConninfo, if_pos hbyte]
  setting keyword hkeyword before after body value rest hbefore hafter hquotes _ _ _ := by
    have hread := readSetting_eq hkeyword hbefore hafter hquotes rest
    obtain ⟨hne, hbytes⟩ := keyword_bytes hkeyword
    obtain ⟨first, more, rfl⟩ := List.exists_cons_of_ne_nil hne
    have hfirst := isSpace_of_isKeywordByte (hbytes first List.mem_cons_self)
    rw [List.cons_append] at hread ⊢
    rw [parseConninfo, if_neg (Bool.not_eq_true _ ▸ hfirst)]
    split
    · next hnone =>
      rw [hread] at hnone
      cases hnone
    · next setting later hsome =>
      rw [hread] at hsome
      cases hsome
      rfl

/-! ### The settings of the string -/

/-- A setting as `make_conninfo` writes it, with a blank in front. -/
def settingText (setting : Bytes × Bytes) : Bytes :=
  blank :: (setting.1 ++ equalsSign :: apostrophe ::
    (escape backslash apostrophe setting.2 ++ [apostrophe]))

theorem nulFree_cons {byte : UInt8} {rest : Bytes} :
    NulFree (byte :: rest) ↔ byte ≠ 0 ∧ NulFree rest := by
  rw [NulFree, List.mem_cons, not_or]
  exact and_congr_left' ne_comm

theorem nulFree_append {first second : Bytes} :
    NulFree (first ++ second) ↔ NulFree first ∧ NulFree second := by
  rw [NulFree, List.mem_append, not_or]
  exact Iff.rfl

theorem nulFree_escape {value : Bytes} (hvalue : NulFree value) :
    NulFree (escape backslash apostrophe value) := by
  intro hmem
  rcases mem_of_mem_escape hmem with hnul | hbackslash
  · exact hvalue hnul
  · exact absurd hbackslash (by decide)

theorem nulFree_keyword {keyword : Bytes} (hkeyword : keyword ∈ conninfoKeywords) :
    NulFree keyword := by
  have hall : ∀ keyword ∈ conninfoKeywords, (0 : UInt8) ∉ keyword := by decide
  exact hall keyword hkeyword

theorem nulFree_settingText {setting : Bytes × Bytes} (hkeyword : setting.1 ∈ conninfoKeywords)
    (hvalue : NulFree setting.2) : NulFree (settingText setting) := by
  have hbody := nulFree_append.mpr ⟨nulFree_escape hvalue, nulFree_cons.mpr
    ⟨(by decide : apostrophe ≠ 0), List.not_mem_nil⟩⟩
  exact nulFree_cons.mpr ⟨by decide, nulFree_append.mpr ⟨nulFree_keyword hkeyword,
    nulFree_cons.mpr ⟨by decide, nulFree_cons.mpr ⟨by decide, hbody⟩⟩⟩⟩

theorem nulFree_settings {settings : List (Bytes × Bytes)}
    (hkeywords : ∀ setting ∈ settings, setting.1 ∈ conninfoKeywords)
    (hvalues : ∀ setting ∈ settings, NulFree setting.2) :
    NulFree (settings.flatMap settingText) := by
  intro hmem
  obtain ⟨setting, hsetting, hnul⟩ := List.mem_flatMap.mp hmem
  exact nulFree_settingText (hkeywords setting hsetting) (hvalues setting hsetting) hnul

/-- A setting ends where the text does or a blank follows. -/
theorem isSpace_head?_settings (settings : List (Bytes × Bytes)) :
    ∀ byte ∈ (settings.flatMap settingText).head?, isSpace byte = true := by
  intro byte hbyte
  cases settings with
  | nil => cases hbyte
  | cons setting later =>
    rw [List.flatMap_cons, settingText, List.cons_append, List.head?_cons,
      Option.mem_some_iff] at hbyte
    rw [← hbyte]
    rfl

/-- The string is its five settings, but for the blank in front of the first. -/
theorem makeConninfo_eq (host port dbName user password : Bytes) :
    blank :: makeConninfo host port dbName user password =
      [(text "host", host), (text "port", port), (text "dbname", dbName), (text "user", user),
        (text "password", password)].flatMap settingText := by
  have hhost : text "host='" = text "host" ++ [equalsSign, apostrophe] := by decide
  have hport : text "' port='" =
      apostrophe :: blank :: (text "port" ++ [equalsSign, apostrophe]) := by decide
  have hdbName : text "' dbname='" =
      apostrophe :: blank :: (text "dbname" ++ [equalsSign, apostrophe]) := by decide
  have huser : text "' user='" =
      apostrophe :: blank :: (text "user" ++ [equalsSign, apostrophe]) := by decide
  have hpassword : text "' password='" =
      apostrophe :: blank :: (text "password" ++ [equalsSign, apostrophe]) := by decide
  have hend : text "'" = [apostrophe] := by decide
  unfold makeConninfo
  rw [hhost, hport, hdbName, huser, hpassword, hend]
  simp only [appendEscaped_eq, settingText, List.flatMap_cons, List.flatMap_nil, List.append_assoc,
    List.cons_append, List.nil_append, List.append_nil]

section Parser

variable {parse : Bytes → Option (List (Bytes × Bytes))}

/-- Settings are parsed one by one, however their values end. -/
theorem LibpqRules.parse_settings (hrules : LibpqRules parse) {settings : List (Bytes × Bytes)}
    (hkeywords : ∀ setting ∈ settings, setting.1 ∈ conninfoKeywords)
    (hvalues : ∀ setting ∈ settings, NulFree setting.2) :
    parse (settings.flatMap settingText) = some settings := by
  induction settings with
  | nil => exact hrules.nil
  | cons setting later ih =>
    obtain ⟨hkeyword, hlaterKeywords⟩ := List.forall_mem_cons.mp hkeywords
    obtain ⟨hvalue, hlaterValues⟩ := List.forall_mem_cons.mp hvalues
    have hlater := nulFree_settings hlaterKeywords hlaterValues
    have htext := nulFree_cons.mp (nulFree_settingText hkeyword hvalue)
    have hparse := hrules.setting setting.1 hkeyword [] [] _ setting.2 (later.flatMap settingText)
      (List.forall_mem_nil _) (List.forall_mem_nil _) (quotes_escape setting.2)
      (nulFree_escape hvalue) hlater (isSpace_head?_settings later)
    rw [ih hlaterKeywords hlaterValues] at hparse
    rw [List.flatMap_cons, settingText, List.cons_append,
      hrules.skip _ _ rfl (nulFree_append.mpr ⟨htext.2, hlater⟩)]
    simp only [List.append_assoc, List.cons_append, List.nil_append] at hparse ⊢
    exact hparse

/-- For all texts without a NUL byte, a parser that follows the rules of libpq finds the five
settings with these values in the string, in this order, and no others. -/
theorem conninfo_parsed (hrules : LibpqRules parse) {host port dbName user password : Bytes}
    (hhost : NulFree host) (hport : NulFree port) (hdbName : NulFree dbName)
    (huser : NulFree user) (hpassword : NulFree password) :
    parse (makeConninfo host port dbName user password) =
      some [(text "host", host), (text "port", port), (text "dbname", dbName),
        (text "user", user), (text "password", password)] := by
  have hkeywords : ∀ setting ∈ [(text "host", host), (text "port", port),
      (text "dbname", dbName), (text "user", user), (text "password", password)],
      setting.1 ∈ conninfoKeywords := by
    simp only [List.forall_mem_cons]
    exact ⟨by decide, by decide, by decide, by decide, by decide, List.forall_mem_nil _⟩
  have hvalues : ∀ setting ∈ [(text "host", host), (text "port", port),
      (text "dbname", dbName), (text "user", user), (text "password", password)],
      NulFree setting.2 := by
    simp only [List.forall_mem_cons]
    exact ⟨hhost, hport, hdbName, huser, hpassword, List.forall_mem_nil _⟩
  have htext := nulFree_settings hkeywords hvalues
  rw [← makeConninfo_eq] at htext
  rw [← hrules.skip blank _ rfl (nulFree_cons.mp htext).2, makeConninfo_eq]
  exact hrules.parse_settings hkeywords hvalues

theorem conninfo_parsed_quoted :
    parseConninfo (makeConninfo (text "localhost") (text "5432") (text "chat") (text "o'hara")
        (text "x' host='other\\")) =
      some [(text "host", text "localhost"), (text "port", text "5432"),
        (text "dbname", text "chat"), (text "user", text "o'hara"),
        (text "password", text "x' host='other\\")] :=
  conninfo_parsed libpqRules_parseConninfo (by decide) (by decide) (by decide) (by decide)
    (by decide)

end Parser

end ChatServer
