import ChatServer.Core.ConfigLoader

/-!
# How the scripts read the configuration

`cfg_get_from_file` of the shell library finds a key with a program of its own: awk skips comments
and blank lines, compares the trimmed text before the first equals sign with the key and prints the
trimmed text behind it; the shell takes the output, and prints the fallback when there is none.

awk and the shell are not part of the repository. `Awk` is what the program uses of the former:
which texts it takes for numbers, when two of them are the same number, and the escapes in an
assignment of the command line. Texts are byte strings, as in the C locale.

`config_agrees` says that the script prints what `get_or` gives, but for the fallback where that is
empty. `config_differs` is about what it leaves out: two names of one number, a NUL byte, which the
shell drops, and a value that `echo` takes for an option.

Not modelled here: a path that is no regular file, which the script takes for a file without the
key.
-/

set_option autoImplicit false
set_option relaxedAutoImplicit false

namespace ChatServer

/-- What the program uses of awk. A value that comes from outside is compared as a number if it
looks like one. -/
structure Awk where
  looksNumeric : Bytes → Bool
  sameNumber : Bytes → Bytes → Bool
  unescape : Bytes → Bytes
  unescape_plain : ∀ value, (92 : UInt8) ∉ value → unescape value = value

/-- A value of awk: its text, and whether it came from outside and is as it came. -/
structure AwkValue where
  value : Bytes
  fromInput : Bool
  deriving DecidableEq

/-- `==`. -/
def Awk.equal (awk : Awk) (first second : AwkValue) : Bool :=
  if first.fromInput && awk.looksNumeric first.value &&
      (second.fromInput && awk.looksNumeric second.value) then
    awk.sameNumber first.value second.value
  else decide (first.value = second.value)

namespace ConfigScript

open ConfigLoader

/-! ### The awk program -/

/-- What `sub` leaves of a value, when it replaced something and when not. -/
def substituted (target : AwkValue) (value : Bytes) : AwkValue :=
  if value = target.value then target else { value := value, fromInput := false }

/-- `sub(/^[[:space:]]+/, "", target)`. -/
def subLeading (target : AwkValue) : AwkValue :=
  substituted target (target.value.dropWhile isSpace)

/-- `sub(/[[:space:]]+$/, "", target)`. -/
def subTrailing (target : AwkValue) : AwkValue :=
  substituted target (target.value.rdropWhile isSpace)

/-- `/^[[:space:]]*#/ || /^[[:space:]]*$/`. -/
def skips (record : Bytes) : Bool :=
  decide ((record.dropWhile isSpace).head? = some hash) || decide (record.dropWhile isSpace = [])

/-- `index($0, "=")`. -/
def index (record : Bytes) : Nat :=
  if equalsSign ∈ record then record.idxOf equalsSign + 1 else 0

/-- The rules on a record: what is printed when it has the key. -/
def awkRecord (awk : Awk) (want : AwkValue) (record : Bytes) : Option Bytes :=
  if skips record then none
  else
    -- `$1`, with the separator `=`
    let field : AwkValue :=
      { value := record.takeWhile fun byte ↦ decide (byte ≠ equalsSign), fromInput := true }
    let k := subTrailing (subLeading field)
    if awk.equal k want then
      let v : AwkValue := { value := record.drop (index record), fromInput := false }
      some (subTrailing (subLeading v)).value
    else none

/-- What the program prints for a file; the first record that has the key ends it. -/
def awkOutput (awk : Awk) (key content : Bytes) : Bytes :=
  let want : AwkValue := { value := awk.unescape key, fromInput := true }
  match (fileLines { content := content }).findSome? (awkRecord awk want) with
  | none => []
  | some v => v ++ [newline]

/-! ### The shell function -/

/-- `$(…)`: NUL bytes are dropped, and the newlines at the end. -/
def commandSubstitution (output : Bytes) : Bytes :=
  (output.filter fun byte ↦ decide (byte ≠ 0)).rdropWhile fun byte ↦ decide (byte = newline)

/-- `-n`, `-e`, `-E` and their combinations, which `echo` takes for options. -/
def isEchoOption : Bytes → Bool
  | 45 :: first :: later => (first :: later).all fun byte ↦ byte == 110 || byte == 101 || byte == 69
  | _ => false

/-- `echo "${word}"`. -/
def echo (word : Bytes) : Bytes :=
  if isEchoOption word then if (110 : UInt8) ∈ word then [] else [newline] else word ++ [newline]

/-- `cfg_get_from_file`; `none` is a path that is empty or no regular file. -/
def cfgGetFromFile (awk : Awk) (key fallback : Bytes) (cfgFile : Option Bytes) : Bytes :=
  let value :=
    match cfgFile with
    | none => []
    | some content => commandSubstitution (awkOutput awk key content)
  echo (if value = [] then fallback else value)

/-! ### awk and the loader on a line -/

theorem value_substituted (target : AwkValue) (value : Bytes) :
    (substituted target value).value = value := by
  unfold substituted
  split_ifs with hsame
  · exact hsame.symm
  · rfl

/-- Both substitutions trim the value. -/
theorem value_subTrailing (target : AwkValue) :
    (subTrailing (subLeading target)).value = trim target.value := by
  rw [subTrailing, value_substituted, subLeading, value_substituted]
  rfl

/-- awk skips what the loader skips. -/
theorem skips_iff {record : Bytes} : skips record = true ↔ ¬ Relevant record := by
  unfold skips Relevant
  induction record with
  | nil => simp
  | cons ch rest ih =>
    by_cases hspace : isSpace ch = true
    · rw [List.dropWhile_cons_of_pos hspace, List.find?_cons_of_neg (by simpa using hspace)]
      exact ih
    · rw [List.dropWhile_cons_of_neg hspace, List.find?_cons_of_pos (by simpa using hspace)]
      simp

/-- `substr` behind the first equals sign. -/
theorem drop_index {record : Bytes} (hequals : equalsSign ∈ record) :
    record.drop (index record) =
      (record.dropWhile fun byte ↦ decide (byte ≠ equalsSign)).tail := by
  rw [index, if_pos hequals]
  induction record with
  | nil => cases hequals
  | cons first later ih =>
    by_cases hfirst : first = equalsSign
    · rw [hfirst, List.idxOf_cons_self, List.dropWhile_cons_of_neg (by simp)]
      rfl
    · have hlater : equalsSign ∈ later :=
        (List.mem_cons.mp hequals).resolve_left fun hsame ↦ hfirst hsame.symm
      rw [List.idxOf_cons_ne _ hfirst, List.dropWhile_cons_of_pos (by simpa using hfirst)]
      exact ih hlater

/-- A text that is no number is compared as a text. -/
theorem equal_of_not_numeric {awk : Awk} {key : Bytes} (hnumber : awk.looksNumeric key = false)
    (first : AwkValue) (fromInput : Bool) :
    awk.equal first ⟨key, fromInput⟩ = decide (first.value = key) := by
  unfold Awk.equal
  rw [if_neg]
  rw [hnumber, Bool.and_false, Bool.and_false]
  exact Bool.false_ne_true

section Loaded

variable {awk : Awk} {key : Bytes} {lines : List Bytes} {cfg : ConfigMap}

/-- The rules print the value of a relevant line with the key. -/
theorem awkRecord_eq_some (hnumber : awk.looksNumeric key = false) {line value : Bytes}
    (hequals : Relevant line → equalsSign ∈ line) :
    awkRecord awk ⟨key, true⟩ line = some value ↔
      Relevant line ∧ lineKey line = key ∧ lineValue line = value := by
  unfold awkRecord
  by_cases hline : Relevant line
  · rw [if_neg fun hskips ↦ skips_iff.mp hskips hline]
    dsimp only
    rw [equal_of_not_numeric hnumber, value_subTrailing, value_subTrailing,
      drop_index (hequals hline), ← lineKey, ← lineValue]
    by_cases hkey : lineKey line = key
    · rw [if_pos (decide_eq_true hkey), Option.some.injEq]
      exact ⟨fun hvalue ↦ ⟨hline, hkey, hvalue⟩, fun hboth ↦ hboth.2.2⟩
    · rw [if_neg (by simpa using hkey)]
      constructor
      · intro hnone
        cases hnone
      · exact fun hboth ↦ absurd hboth.2.1 hkey
  · rw [if_pos (skips_iff.mpr hline)]
    constructor
    · intro hnone
      cases hnone
    · exact fun hboth ↦ absurd hboth.1 hline

/-- The first record that has the key has the value of the map. -/
theorem findSome?_awkRecord (hloaded : Loaded lines cfg)
    (hnumber : awk.looksNumeric key = false) :
    lines.findSome? (awkRecord awk ⟨key, true⟩) = cfg.lookup key := by
  have hequals : ∀ line ∈ lines, Relevant line → equalsSign ∈ line := fun line hmem hline ↦
    hloaded.accepted.equalsSign line (List.mem_filter.mpr ⟨hmem, decide_eq_true hline⟩)
  cases hfind : lines.findSome? (awkRecord awk ⟨key, true⟩) with
  | none =>
    symm
    rw [Option.eq_none_iff_forall_ne_some]
    intro value hvalue
    obtain ⟨line, hline, hboth⟩ := (hloaded.lookup key value).mp hvalue
    obtain ⟨hmem, hrelevant⟩ := List.mem_filter.mp hline
    have hprints := (awkRecord_eq_some hnumber (hequals line hmem)).mpr
      ⟨of_decide_eq_true hrelevant, hboth⟩
    rw [List.findSome?_eq_none_iff.mp hfind line hmem] at hprints
    cases hprints
  | some value =>
    obtain ⟨line, hmem, hprints⟩ := List.exists_of_findSome?_eq_some hfind
    obtain ⟨hrelevant, hboth⟩ := (awkRecord_eq_some hnumber (hequals line hmem)).mp hprints
    refine ((hloaded.lookup key value).mpr ⟨line, ?_, hboth⟩).symm
    exact List.mem_filter.mpr ⟨hmem, decide_eq_true hrelevant⟩

end Loaded

/-! ### The shell -/

/-- A trimmed text does not end in a newline. -/
theorem rdropWhile_newline_trim (sv : Bytes) :
    (trim sv).rdropWhile (fun byte ↦ decide (byte = newline)) = trim sv := by
  rw [List.rdropWhile_eq_self_iff]
  intro hne hlast
  have hspace : ¬ isSpace ((trim sv).getLast hne) = true := List.rdropWhile_last_not _ _ hne
  rw [of_decide_eq_true hlast] at hspace
  exact hspace (by decide)

/-- The shell takes a trimmed text as it was printed, when it has no NUL byte. -/
theorem commandSubstitution_trim {sv : Bytes} (hnul : 0 ∉ trim sv) :
    commandSubstitution (trim sv ++ [newline]) = trim sv := by
  have hkept : (trim sv ++ [newline]).filter (fun byte ↦ decide (byte ≠ 0)) =
      trim sv ++ [newline] := by
    rw [List.filter_eq_self]
    intro byte hbyte
    refine decide_eq_true fun hzero ↦ ?_
    rcases List.mem_append.mp hbyte with hold | hnew
    · exact hnul (hzero ▸ hold)
    · rw [List.mem_singleton.mp hnew] at hzero
      cases hzero
  rw [commandSubstitution, hkept, List.rdropWhile_concat_pos _ _ _ (by decide),
    rdropWhile_newline_trim]

/-! ### Two readers of one file -/

/-- The bytes of a key: letters, digits, `'.'` and `'_'`. -/
def IsKeyByte (byte : UInt8) : Prop :=
  (97 ≤ byte ∧ byte ≤ 122) ∨ (65 ≤ byte ∧ byte ≤ 90) ∨ (48 ≤ byte ∧ byte ≤ 57) ∨ byte = 46 ∨
    byte = 95

instance (byte : UInt8) : Decidable (IsKeyByte byte) :=
  inferInstanceAs (Decidable (_ ∨ _ ∨ _ ∨ _ ∨ _))

/-- `get_or`, with the fallback for an empty value as well. -/
def getOrNonempty (cfg : ConfigMap) (key fallback : Bytes) : Bytes :=
  if getOr cfg key fallback = [] then fallback else getOr cfg key fallback

theorem getOrNonempty_eq (cfg : ConfigMap) (key fallback : Bytes) :
    getOrNonempty cfg key fallback =
      if (cfg.lookup key).getD [] = [] then fallback else (cfg.lookup key).getD [] := by
  unfold getOrNonempty getOr
  cases cfg.lookup key with
  | none =>
    dsimp only
    rw [ite_self]
    rfl
  | some value => rfl

/-- The value that the shell has of a key: nothing when the file does not have it. -/
theorem commandSubstitution_awkOutput {awk : Awk} {content key : Bytes} {cfg : ConfigMap}
    (hloaded : Loaded (fileLines { content := content }) cfg)
    (hkey : ∀ byte ∈ key, IsKeyByte byte) (hnumber : awk.looksNumeric key = false)
    (hnul : ∀ value, cfg.lookup key = some value → 0 ∉ value) :
    commandSubstitution (awkOutput awk key content) = (cfg.lookup key).getD [] := by
  have hunescape : awk.unescape key = key :=
    awk.unescape_plain key fun hmem ↦ absurd (hkey _ hmem) (by decide)
  unfold awkOutput
  dsimp only
  rw [hunescape, findSome?_awkRecord hloaded hnumber]
  cases hlookup : cfg.lookup key with
  | none => rfl
  | some value =>
    obtain ⟨line, -, -, hvalue⟩ := (hloaded.lookup key value).mp hlookup
    have hplain := hnul value hlookup
    rw [← hvalue] at hplain ⊢
    exact commandSubstitution_trim hplain

/-- The script and the loader read the same configuration. For a file that the loader accepts, a key
that awk does not take for a number, and a value without NUL bytes, the script prints what `get_or`
gives, with the fallback in the place of an empty value, if that is no option of `echo`. -/
theorem config_agrees (awk : Awk) {content : Bytes} {cfg : ConfigMap}
    (hload : loadKeyValueFile (some { content := content }) = .ok cfg) {key : Bytes}
    (hkey : ∀ byte ∈ key, IsKeyByte byte) (hnumber : awk.looksNumeric key = false)
    {fallback : Bytes} (hnul : 0 ∉ getOr cfg key fallback)
    (hoption : isEchoOption (getOrNonempty cfg key fallback) = false) :
    cfgGetFromFile awk key fallback (some content) =
      getOrNonempty cfg key fallback ++ [newline] := by
  have hplain : ∀ value, cfg.lookup key = some value → 0 ∉ value := by
    intro value hlookup
    rw [getOr, hlookup] at hnul
    exact hnul
  have hvalue := commandSubstitution_awkOutput (loaded_of_eq_ok hload) hkey hnumber hplain
  unfold cfgGetFromFile
  dsimp only
  simp only [hvalue]
  rw [← getOrNonempty_eq, echo, hoption, if_neg Bool.false_ne_true]

/-- The numbers of awk that are digits with at most one point among them. -/
def decimalAwk : Awk where
  looksNumeric value :=
    value.any isDigit && value.all (fun byte ↦ isDigit byte || byte == 46) &&
      decide (value.count 46 ≤ 1)
  sameNumber first second :=
    let whole := fun value : Bytes ↦ (value.takeWhile (· != 46)).dropWhile (· == 48)
    let fraction := fun value : Bytes ↦ (value.dropWhile (· != 46)).tail.rdropWhile (· == 48)
    decide (whole first = whole second ∧ fraction first = fraction second)
  unescape := id
  unescape_plain _ _ := rfl

/-- A configuration with values that hold `'='` and `'#'` and one that is empty. -/
def sampleConfig : Bytes :=
  text "# server\n\n db.host = 10.0.0.7\r\ndb.name=a=b #1\ndb.port="

theorem config_agrees_sampleConfig :
    cfgGetFromFile decimalAwk (text "db.name") [] (some sampleConfig) = text "a=b #1\n" ∧
    cfgGetFromFile decimalAwk (text "db.port") (text "5432") (some sampleConfig) =
      text "5432\n" := by
  have haccepted : Accepted (fileLines { content := sampleConfig }) := by decide +kernel
  obtain ⟨cfg, hcfg, hloaded⟩ := load_accepted haccepted
  have hload := (loadKeyValueFile_eq sampleConfig).trans hcfg
  have hname : getOr cfg (text "db.name") [] = text "a=b #1" := by
    rw [getOr, (hloaded.lookup (text "db.name") (text "a=b #1")).mpr (by decide +kernel)]
  have hport : getOr cfg (text "db.port") (text "5432") = [] := by
    rw [getOr, (hloaded.lookup (text "db.port") []).mpr (by decide +kernel)]
  constructor
  · refine (config_agrees decimalAwk hload ?_ ?_ ?_ ?_).trans ?_
    · decide +kernel
    · decide +kernel
    · rw [hname]
      decide +kernel
    · rw [getOrNonempty, hname]
      decide +kernel
    · rw [getOrNonempty, hname]
      decide +kernel
  · refine (config_agrees decimalAwk hload ?_ ?_ ?_ ?_).trans ?_
    · decide +kernel
    · decide +kernel
    · rw [hport]
      decide +kernel
    · rw [getOrNonempty, hport]
      decide +kernel
    · rw [getOrNonempty, hport]
      decide +kernel

/-! ### Where the readers differ -/

/-- The script prints what `get_or` gives, whatever that is. -/
def PrintsGetOr (awk : Awk) (content key fallback : Bytes) : Prop :=
  ∀ cfg, loadKeyValueFile (some { content := content }) = .ok cfg →
    (∀ byte ∈ key, IsKeyByte byte) →
      cfgGetFromFile awk key fallback (some content) = getOr cfg key fallback ++ [newline]

/-- A file with the key whose value is not what the script prints. -/
theorem not_printsGetOr {awk : Awk} {content key fallback : Bytes} (value : Bytes)
    (haccepted : Accepted (fileLines { content := content }))
    (hline : ∃ line ∈ relevantLines (fileLines { content := content }),
      lineKey line = key ∧ lineValue line = value)
    (hkey : ∀ byte ∈ key, IsKeyByte byte)
    (hprints : cfgGetFromFile awk key fallback (some content) ≠ value ++ [newline]) :
    ¬ PrintsGetOr awk content key fallback := by
  intro hagrees
  obtain ⟨cfg, hcfg, hloaded⟩ := load_accepted haccepted
  have hgets := hagrees cfg ((loadKeyValueFile_eq content).trans hcfg) hkey
  rw [getOr, (hloaded.lookup key value).mpr hline] at hgets
  exact hprints hgets

/-- An empty value, for which the script prints the fallback; two names of one number; a value that
`echo` takes for an option; and a NUL byte, which the shell drops. -/
theorem config_differs :
    ¬ PrintsGetOr decimalAwk (text "db.host=") (text "db.host") (text "127.0.0.1") ∧
    ¬ PrintsGetOr decimalAwk (text "1.0=a\n1=b") (text "1") [] ∧
    ¬ PrintsGetOr decimalAwk (text "db.name=-n") (text "db.name") [] ∧
    ¬ PrintsGetOr decimalAwk (text "db.name=" ++ [97, 0, 98]) (text "db.name") [] := by
  refine ⟨not_printsGetOr [] ?_ ?_ ?_ ?_, not_printsGetOr (text "b") ?_ ?_ ?_ ?_,
    not_printsGetOr (text "-n") ?_ ?_ ?_ ?_, not_printsGetOr [97, 0, 98] ?_ ?_ ?_ ?_⟩
  all_goals decide +kernel

end ConfigScript

end ChatServer
