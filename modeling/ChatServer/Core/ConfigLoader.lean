import Mathlib.Data.Finmap
import Mathlib.Data.List.DropRight
import ChatServer.Core.Bytes
import ChatServer.General.DelimitedStream

/-!
# The configuration loader

`load_key_value_file` reads a file line by line into a map. Comments and blank lines are skipped;
any other line must have an equals sign with a key in front of it that no line before has. The first
line that fails ends the loop with its error.

`Relevant`, `lineKey` and `lineValue` say what a line is without the loops of the loader, and
`lineError` which condition it breaks behind other lines. `Accepted` are the conditions on all
lines together. `Loaded` is what holds after each line of the loop, and `config_exact` the result:
the loader accepts exactly the files whose lines are accepted, its map has exactly their pairs, and
its error is that of the first line that breaks a condition.

`checkServerRequire_eq_ok` says which keys a server has that starts; `get_or` then gives what the
file has for them, whatever the fallback (`getOr_of_checked`).

Not modelled here: the texts of the errors.
-/

set_option autoImplicit false
set_option relaxedAutoImplicit false

namespace ChatServer

/-- `config_error`. -/
inductive ConfigError
  | fileNotFound
  | malformedLine
  | emptyKey
  | duplicateKey
  | readFailed
  | missingRequiredKey
  deriving DecidableEq

/-- `config_map`. -/
abbrev ConfigMap :=
  Finmap fun _ : Bytes ↦ Bytes

/-- A file that was opened: its content, up to where reading fails if it does. -/
structure FileStream where
  content : Bytes
  readFails : Bool := false

/-- `'='` and `'#'`. -/
def equalsSign : UInt8 := 61
@[inherit_doc equalsSign] def hash : UInt8 := 35

namespace ConfigLoader

/-- `trim`. -/
def trim (sv : Bytes) : Bytes :=
  (sv.dropWhile isSpace).rdropWhile isSpace

/-- `is_comment_or_blank`. -/
def isCommentOrBlank : Bytes → Bool
  | [] => true
  | ch :: rest => if isSpace ch then isCommentOrBlank rest else decide (ch = hash)

/-- The lines that `std::getline` returns. A line that is not ended is lost when reading fails. -/
def fileLines (file : FileStream) : List Bytes :=
  if file.readFails then DelimitedStream.records newline file.content
  else DelimitedStream.allRecords newline file.content

/-- A round of the loop of `load_key_value_file`. -/
def loadLine (cfg : ConfigMap) (line : Bytes) : Except ConfigError ConfigMap :=
  if isCommentOrBlank line then .ok cfg
  else
    match DelimitedStream.cut equalsSign line with
    | none => .error .malformedLine
    | some (before, after) =>
      let key := trim before
      let value := trim after
      if key = [] then .error .emptyKey
      else if key ∈ cfg then .error .duplicateKey
      else .ok (cfg.insert key value)

/-- `load_key_value_file` on what opening the path gives. -/
def loadKeyValueFile : Option FileStream → Except ConfigError ConfigMap
  | none => .error .fileNotFound
  | some file =>
    match (fileLines file).foldlM loadLine ∅ with
    | .error error => .error error
    | .ok cfg => if file.readFails then .error .readFailed else .ok cfg

/-- `require`. -/
def require (cfg : ConfigMap) (key : Bytes) : Except ConfigError Bytes :=
  match cfg.lookup key with
  | none => .error .missingRequiredKey
  | some value => .ok value

/-- `get_or`. -/
def getOr (cfg : ConfigMap) (key fallback : Bytes) : Bytes :=
  match cfg.lookup key with
  | none => fallback
  | some value => value

/-- `check_server_require`. -/
def checkServerRequire (cfg env : ConfigMap) : Except ConfigError Unit := do
  let _ ← require cfg (text "db.host")
  let _ ← require cfg (text "db.port")
  let _ ← require cfg (text "db.name")
  let _ ← require env (text "db.user")
  let _ ← require cfg (text "tls.cert")
  let _ ← require cfg (text "tls.key")
  let _ ← require env (text "db.password")
  .ok ()

/-! ### What a line is -/

/-- The line has a character that is no space, and the first one is not `'#'`. -/
def Relevant (line : Bytes) : Prop :=
  ∃ first ∈ line.find? fun byte ↦ !isSpace byte, first ≠ hash

instance (line : Bytes) : Decidable (Relevant line) :=
  inferInstanceAs (Decidable (∃ first ∈ line.find? fun byte ↦ !isSpace byte, first ≠ hash))

/-- The trimmed text before the first `'='`. -/
def lineKey (line : Bytes) : Bytes :=
  trim (line.takeWhile fun byte ↦ decide (byte ≠ equalsSign))

/-- The trimmed text after the first `'='`. -/
def lineValue (line : Bytes) : Bytes :=
  trim (line.dropWhile fun byte ↦ decide (byte ≠ equalsSign)).tail

/-- The relevant ones of these lines. -/
def relevantLines (lines : List Bytes) : List Bytes :=
  lines.filter fun line ↦ decide (Relevant line)

/-- The condition that a line breaks behind these lines. -/
def lineError (earlier : List Bytes) (line : Bytes) : Option ConfigError :=
  if ¬ Relevant line then none
  else if equalsSign ∉ line then some .malformedLine
  else if lineKey line = [] then some .emptyKey
  else if lineKey line ∈ (relevantLines earlier).map lineKey then some .duplicateKey
  else none

/-- The conditions on the lines of a file. -/
structure Accepted (lines : List Bytes) : Prop where
  equalsSign : ∀ line ∈ relevantLines lines, equalsSign ∈ line
  key : ∀ line ∈ relevantLines lines, lineKey line ≠ []
  distinct : ((relevantLines lines).map lineKey).Nodup

instance (lines : List Bytes) : Decidable (Accepted lines) :=
  decidable_of_iff
    ((∀ line ∈ relevantLines lines, equalsSign ∈ line) ∧
      (∀ line ∈ relevantLines lines, lineKey line ≠ []) ∧
      ((relevantLines lines).map lineKey).Nodup)
    ⟨fun ⟨hequals, hkey, hdistinct⟩ ↦ ⟨hequals, hkey, hdistinct⟩,
      fun haccepted ↦ ⟨haccepted.equalsSign, haccepted.key, haccepted.distinct⟩⟩

theorem isCommentOrBlank_iff {line : Bytes} : isCommentOrBlank line = true ↔ ¬ Relevant line := by
  unfold Relevant
  induction line with
  | nil => simp [isCommentOrBlank]
  | cons ch rest ih =>
    unfold isCommentOrBlank
    by_cases hspace : isSpace ch = true
    · rw [if_pos hspace, List.find?_cons_of_neg (by simpa using hspace)]
      exact ih
    · rw [if_neg hspace, List.find?_cons_of_pos (by simpa using hspace)]
      simp

/-- A line that is skipped adds no relevant line. -/
theorem relevantLines_concat_of_not {earlier : List Bytes} {line : Bytes}
    (hline : ¬ Relevant line) : relevantLines (earlier ++ [line]) = relevantLines earlier := by
  rw [relevantLines, List.filter_append, List.filter_cons_of_neg (by simpa using hline),
    List.filter_nil, List.append_nil, relevantLines]

theorem relevantLines_concat {earlier : List Bytes} {line : Bytes} (hline : Relevant line) :
    relevantLines (earlier ++ [line]) = relevantLines earlier ++ [line] := by
  rw [relevantLines, List.filter_append, List.filter_cons_of_pos (by simpa using hline),
    List.filter_nil, relevantLines]

theorem relevantLines_perm {lines others : List Bytes} (hperm : others.Perm lines) :
    (relevantLines others).Perm (relevantLines lines) :=
  hperm.filter _

theorem Accepted.perm {lines others : List Bytes} (haccepted : Accepted lines)
    (hperm : others.Perm lines) : Accepted others where
  equalsSign line hline :=
    haccepted.equalsSign line ((relevantLines_perm hperm).mem_iff.mp hline)
  key line hline := haccepted.key line ((relevantLines_perm hperm).mem_iff.mp hline)
  distinct := ((relevantLines_perm hperm).map lineKey).nodup_iff.mpr haccepted.distinct

/-- One more line is accepted exactly when it breaks no condition. -/
theorem accepted_concat_iff {earlier : List Bytes} {line : Bytes} :
    Accepted (earlier ++ [line]) ↔ Accepted earlier ∧ lineError earlier line = none := by
  by_cases hline : Relevant line
  · have hlines := @relevantLines_concat earlier line hline
    unfold lineError
    rw [if_neg (not_not.mpr hline)]
    constructor
    · intro haccepted
      have hequals := haccepted.equalsSign
      have hkey := haccepted.key
      have hdistinct := haccepted.distinct
      rw [hlines] at hequals hkey hdistinct
      rw [List.map_append, List.map_singleton, List.nodup_append] at hdistinct
      obtain ⟨hearlier, -, hnew⟩ := hdistinct
      refine ⟨⟨fun other hother ↦ hequals other (List.mem_append_left _ hother),
        fun other hother ↦ hkey other (List.mem_append_left _ hother), hearlier⟩, ?_⟩
      have hlast : line ∈ relevantLines earlier ++ [line] :=
        List.mem_append_right _ (List.mem_singleton_self line)
      rw [if_neg (not_not.mpr (hequals line hlast)), if_neg (hkey line hlast), if_neg]
      exact fun hsame ↦ hnew _ hsame _ (List.mem_singleton_self _) rfl
    · rintro ⟨haccepted, hnone⟩
      split_ifs at hnone with hequals hkey hsame
      refine ⟨?_, ?_, ?_⟩
      · rw [hlines]
        intro other hother
        rcases List.mem_append.mp hother with hold | hnew
        · exact haccepted.equalsSign other hold
        · rw [List.mem_singleton.mp hnew]
          exact hequals
      · rw [hlines]
        intro other hother
        rcases List.mem_append.mp hother with hold | hnew
        · exact haccepted.key other hold
        · rw [List.mem_singleton.mp hnew]
          exact hkey
      · rw [hlines, List.map_append, List.map_singleton, List.nodup_append]
        refine ⟨haccepted.distinct, List.nodup_singleton _, fun old hold new hnew heq ↦ ?_⟩
        rw [heq, List.mem_singleton.mp hnew] at hold
        exact hsame hold
  · have hlines := @relevantLines_concat_of_not earlier line hline
    have hnone : lineError earlier line = none := by rw [lineError, if_pos hline]
    constructor
    · rintro ⟨hequals, hkey, hdistinct⟩
      rw [hlines] at hequals hkey hdistinct
      exact ⟨⟨hequals, hkey, hdistinct⟩, hnone⟩
    · rintro ⟨⟨hequals, hkey, hdistinct⟩, -⟩
      rw [← hlines] at hequals hkey hdistinct
      exact ⟨hequals, hkey, hdistinct⟩

/-! ### The loop -/

/-- What the map holds after these lines: their keys, each with its value. -/
structure Loaded (lines : List Bytes) (cfg : ConfigMap) : Prop where
  accepted : Accepted lines
  lookup : ∀ key value, cfg.lookup key = some value ↔
    ∃ line ∈ relevantLines lines, lineKey line = key ∧ lineValue line = value

theorem loaded_nil : Loaded [] ∅ where
  accepted := ⟨fun _ hline ↦ absurd hline List.not_mem_nil,
    fun _ hline ↦ absurd hline List.not_mem_nil, List.nodup_nil⟩
  lookup key value := by
    rw [Finmap.lookup_empty]
    constructor
    · intro hnone
      cases hnone
    · rintro ⟨line, hline, -⟩
      exact absurd hline List.not_mem_nil

variable {lines earlier : List Bytes} {cfg : ConfigMap} {line : Bytes}

/-- A key of the map is a key of a line. -/
theorem Loaded.mem_iff (hloaded : Loaded lines cfg) {key : Bytes} :
    key ∈ cfg ↔ key ∈ (relevantLines lines).map lineKey := by
  rw [Finmap.mem_iff, List.mem_map]
  constructor
  · rintro ⟨value, hvalue⟩
    obtain ⟨line, hline, hkey, -⟩ := (hloaded.lookup key value).mp hvalue
    exact ⟨line, hline, hkey⟩
  · rintro ⟨line, hline, hkey⟩
    exact ⟨lineValue line, (hloaded.lookup key _).mpr ⟨line, hline, hkey, rfl⟩⟩

/-- The map after a relevant line with a new key. -/
theorem Loaded.insert (hloaded : Loaded earlier cfg) (hline : Relevant line)
    (haccepted : Accepted (earlier ++ [line])) (hnew : lineKey line ∉ cfg) :
    Loaded (earlier ++ [line]) (cfg.insert (lineKey line) (lineValue line)) where
  accepted := haccepted
  lookup key value := by
    rw [relevantLines_concat hline]
    by_cases hkey : key = lineKey line
    · rw [hkey, Finmap.lookup_insert, Option.some.injEq]
      constructor
      · intro hvalue
        exact ⟨line, List.mem_append_right _ (List.mem_singleton_self line), rfl, hvalue⟩
      · rintro ⟨other, hother, hsame, hvalue⟩
        rcases List.mem_append.mp hother with hold | hlast
        · exact absurd (hloaded.mem_iff.mpr (List.mem_map.mpr ⟨other, hold, hsame⟩)) hnew
        · rw [← hvalue, List.mem_singleton.mp hlast]
    · rw [Finmap.lookup_insert_of_ne _ hkey, hloaded.lookup key value]
      constructor
      · rintro ⟨other, hother, hboth⟩
        exact ⟨other, List.mem_append_left _ hother, hboth⟩
      · rintro ⟨other, hother, hboth⟩
        rcases List.mem_append.mp hother with hold | hlast
        · exact ⟨other, hold, hboth⟩
        · rw [List.mem_singleton.mp hlast] at hboth
          exact absurd hboth.1.symm hkey

theorem loadLine_of_not_relevant (hline : ¬ Relevant line) : loadLine cfg line = .ok cfg := by
  rw [loadLine, if_pos (isCommentOrBlank_iff.mpr hline)]

theorem loadLine_of_notMem (hline : Relevant line) (hequals : equalsSign ∉ line) :
    loadLine cfg line = .error .malformedLine := by
  rw [loadLine, if_neg fun hskip ↦ isCommentOrBlank_iff.mp hskip hline,
    DelimitedStream.cut_eq_none.mpr hequals]

/-- A round of the loop on a line with an equals sign. -/
theorem loadLine_of_mem (hline : Relevant line) (hequals : equalsSign ∈ line) :
    loadLine cfg line =
      if lineKey line = [] then .error .emptyKey
      else if lineKey line ∈ cfg then .error .duplicateKey
      else .ok (cfg.insert (lineKey line) (lineValue line)) := by
  rw [loadLine, if_neg fun hskip ↦ isCommentOrBlank_iff.mp hskip hline,
    DelimitedStream.cut_of_mem hequals]
  rfl

/-- A round of the loop returns the error of the line, if it breaks a condition. -/
theorem Loaded.loadLine_error (hloaded : Loaded earlier cfg) {error : ConfigError}
    (herror : lineError earlier line = some error) : loadLine cfg line = .error error := by
  unfold lineError at herror
  by_cases hline : Relevant line
  · rw [if_neg (not_not.mpr hline)] at herror
    by_cases hequals : equalsSign ∈ line
    · rw [if_neg (not_not.mpr hequals)] at herror
      rw [loadLine_of_mem hline hequals]
      split_ifs at herror with hkey hsame
      · rw [if_pos hkey, Option.some.inj herror]
      · rw [if_neg hkey, if_pos (hloaded.mem_iff.mpr hsame), Option.some.inj herror]
    · rw [if_pos hequals] at herror
      rw [loadLine_of_notMem hline hequals, Option.some.inj herror]
  · rw [if_pos hline] at herror
    cases herror

/-- A round of the loop loads a line that breaks no condition. -/
theorem Loaded.loadLine_ok (hloaded : Loaded earlier cfg)
    (hnone : lineError earlier line = none) :
    ∃ next, loadLine cfg line = .ok next ∧ Loaded (earlier ++ [line]) next := by
  have haccepted := accepted_concat_iff.mpr ⟨hloaded.accepted, hnone⟩
  by_cases hline : Relevant line
  · unfold lineError at hnone
    rw [if_neg (not_not.mpr hline)] at hnone
    split_ifs at hnone with hequals hkey hsame
    have hnew : lineKey line ∉ cfg := fun hmem ↦ hsame (hloaded.mem_iff.mp hmem)
    refine ⟨_, ?_, hloaded.insert hline haccepted hnew⟩
    rw [loadLine_of_mem hline hequals, if_neg hkey, if_neg hnew]
  · refine ⟨cfg, loadLine_of_not_relevant hline, haccepted, ?_⟩
    rw [relevantLines_concat_of_not hline]
    exact hloaded.lookup

/-- The loop over accepted lines. -/
theorem load_accepted (haccepted : Accepted lines) :
    ∃ cfg, lines.foldlM loadLine ∅ = .ok cfg ∧ Loaded lines cfg := by
  induction lines using List.reverseRecOn with
  | nil => exact ⟨∅, rfl, loaded_nil⟩
  | append_singleton earlier line ih =>
    obtain ⟨hearlier, hnone⟩ := accepted_concat_iff.mp haccepted
    obtain ⟨cfg, hcfg, hloaded⟩ := ih hearlier
    obtain ⟨next, hnext, hloaded⟩ := hloaded.loadLine_ok hnone
    refine ⟨next, ?_, hloaded⟩
    rw [List.foldlM_append, hcfg]
    show [line].foldlM loadLine cfg = _
    rw [List.foldlM_cons, hnext]
    rfl

/-- The loop ends with the error of the first line that breaks a condition. -/
theorem load_breaks {later : List Bytes} {error : ConfigError} (hearlier : Accepted earlier)
    (herror : lineError earlier line = some error) :
    (earlier ++ line :: later).foldlM loadLine ∅ = .error error := by
  obtain ⟨cfg, hcfg, hloaded⟩ := load_accepted hearlier
  rw [List.foldlM_append, hcfg]
  show (line :: later).foldlM loadLine cfg = _
  rw [List.foldlM_cons, hloaded.loadLine_error herror]
  rfl

/-- Lines that are not accepted have a first one that breaks a condition. -/
theorem accepted_or_breaks (lines : List Bytes) :
    Accepted lines ∨ ∃ earlier line later error, lines = earlier ++ line :: later ∧
      Accepted earlier ∧ lineError earlier line = some error := by
  induction lines using List.reverseRecOn with
  | nil => exact Or.inl loaded_nil.accepted
  | append_singleton earlier line ih =>
    rcases ih with haccepted | ⟨first, breaking, later, error, rfl, hfirst, herror⟩
    · cases hline : lineError earlier line with
      | none => exact Or.inl (accepted_concat_iff.mpr ⟨haccepted, hline⟩)
      | some error => exact Or.inr ⟨earlier, line, [], error, rfl, haccepted, hline⟩
    · refine Or.inr ⟨first, breaking, later ++ [line], error, ?_, hfirst, herror⟩
      rw [List.append_assoc, List.cons_append]

/-- What is loaded from a file that can be read. -/
theorem loadKeyValueFile_eq (content : Bytes) :
    loadKeyValueFile (some { content := content }) =
      (fileLines { content := content }).foldlM loadLine ∅ := by
  unfold loadKeyValueFile
  dsimp only
  cases (fileLines { content := content }).foldlM loadLine ∅ with
  | error error => rfl
  | ok cfg => rfl

/-- A map that was loaded holds the lines of the file. -/
theorem loaded_of_eq_ok {content : Bytes}
    (hok : loadKeyValueFile (some { content := content }) = .ok cfg) :
    Loaded (fileLines { content := content }) cfg := by
  rw [loadKeyValueFile_eq] at hok
  rcases accepted_or_breaks (fileLines { content := content }) with
    haccepted | ⟨earlier, line, later, error, hsplit, hearlier, herror⟩
  · obtain ⟨loaded, hloaded, hholds⟩ := load_accepted haccepted
    rw [hloaded] at hok
    rw [← Except.ok.inj hok]
    exact hholds
  · rw [hsplit, load_breaks hearlier herror] at hok
    cases hok

/-! ### The keys of the server -/

theorem require_bind_eq_ok {key : Bytes} {rest : Except ConfigError Unit} :
    (do let _ ← require cfg key; rest) = .ok () ↔ key ∈ cfg ∧ rest = .ok () := by
  unfold require
  rw [Finmap.mem_iff]
  cases cfg.lookup key with
  | none => simp [bind, Except.bind]
  | some value => simp [bind, Except.bind]

/-- The server starts only with all the keys it requires. -/
theorem checkServerRequire_eq_ok {env : ConfigMap} :
    checkServerRequire cfg env = .ok () ↔
      (∀ key ∈ ["db.host", "db.port", "db.name", "tls.cert", "tls.key"], text key ∈ cfg) ∧
      ∀ key ∈ ["db.user", "db.password"], text key ∈ env := by
  unfold checkServerRequire
  simp only [require_bind_eq_ok, List.forall_mem_cons]
  tauto

/-- A server that starts takes none of these values from a fallback. -/
theorem getOr_of_checked {env : ConfigMap} (hchecked : checkServerRequire cfg env = .ok ())
    {key : String} (hkey : key ∈ ["db.host", "db.port", "db.name", "tls.cert", "tls.key"])
    (fallback other : Bytes) : getOr cfg (text key) fallback = getOr cfg (text key) other := by
  have hmem := (checkServerRequire_eq_ok.mp hchecked).1 key hkey
  obtain ⟨value, hvalue⟩ := Finmap.mem_iff.mp hmem
  rw [getOr, getOr, hvalue]

/-! ### The result -/

/-- Two maps that hold the same lines are the same. -/
theorem Loaded.eq {other : ConfigMap} {others : List Bytes} (hloaded : Loaded lines cfg)
    (hother : Loaded others other) (hperm : others.Perm lines) : other = cfg := by
  refine Finmap.ext_lookup fun key ↦ Option.ext fun value ↦ ?_
  rw [hloaded.lookup, hother.lookup]
  simp only [(relevantLines_perm hperm).mem_iff]

/-- The loader is exact. A file is accepted exactly when each relevant line has an equals sign with
a key in front of it and the keys are distinct. The map then has the keys of these lines with their
values, and any order of the lines gives the same map. A file that is not accepted gives the error
of the first line that breaks a condition. -/
theorem config_exact (content : Bytes) :
    ((∃ cfg, loadKeyValueFile (some { content := content }) = .ok cfg) ↔
      (∀ line ∈ relevantLines (fileLines { content := content }),
        equalsSign ∈ line ∧ lineKey line ≠ []) ∧
      ((relevantLines (fileLines { content := content })).map lineKey).Nodup) ∧
    (∀ cfg, loadKeyValueFile (some { content := content }) = .ok cfg →
      (∀ key value, cfg.lookup key = some value ↔
        ∃ line ∈ relevantLines (fileLines { content := content }),
          lineKey line = key ∧ lineValue line = value) ∧
      ∀ permuted : Bytes,
        (fileLines { content := permuted }).Perm (fileLines { content := content }) →
          loadKeyValueFile (some { content := permuted }) = .ok cfg) ∧
    ∀ error, loadKeyValueFile (some { content := content }) = .error error ↔
      ∃ earlier line later, fileLines { content := content } = earlier ++ line :: later ∧
        Accepted earlier ∧ lineError earlier line = some error := by
  refine ⟨⟨?_, ?_⟩, ?_, fun error ↦ ⟨?_, ?_⟩⟩
  · rintro ⟨cfg, hcfg⟩
    have haccepted := (loaded_of_eq_ok hcfg).accepted
    exact ⟨fun line hline ↦ ⟨haccepted.equalsSign line hline, haccepted.key line hline⟩,
      haccepted.distinct⟩
  · rintro ⟨hrelevant, hdistinct⟩
    obtain ⟨cfg, hcfg, -⟩ := load_accepted ⟨fun line hline ↦ (hrelevant line hline).1,
      fun line hline ↦ (hrelevant line hline).2, hdistinct⟩
    exact ⟨cfg, by rw [loadKeyValueFile_eq, hcfg]⟩
  · intro cfg hcfg
    have hloaded := loaded_of_eq_ok hcfg
    refine ⟨hloaded.lookup, fun permuted hperm ↦ ?_⟩
    obtain ⟨other, hother, hholds⟩ := load_accepted (hloaded.accepted.perm hperm)
    rw [loadKeyValueFile_eq, hother, hloaded.eq hholds hperm]
  · intro herror
    rw [loadKeyValueFile_eq] at herror
    rcases accepted_or_breaks (fileLines { content := content }) with
      haccepted | ⟨earlier, line, later, first, hsplit, hearlier, hfirst⟩
    · obtain ⟨cfg, hcfg, -⟩ := load_accepted haccepted
      rw [hcfg] at herror
      cases herror
    · rw [hsplit, load_breaks hearlier hfirst] at herror
      rw [← Except.error.inj herror]
      exact ⟨earlier, line, later, hsplit, hearlier, hfirst⟩
  · rintro ⟨earlier, line, later, hsplit, hearlier, herror⟩
    rw [loadKeyValueFile_eq, hsplit, load_breaks hearlier herror]

theorem config_exact_permuted :
    loadKeyValueFile (some { content := text "b=2=#3\n # c\n\ta = 1\r\n" }) =
      loadKeyValueFile (some { content := text "\ta = 1\r\nb=2=#3\n # c" }) := by
  obtain ⟨haccepted, hloads, -⟩ := config_exact (text "\ta = 1\r\nb=2=#3\n # c")
  obtain ⟨cfg, hcfg⟩ := haccepted.mpr (by decide +kernel)
  rw [hcfg]
  exact (hloads cfg hcfg).2 _ (by decide +kernel)

end ConfigLoader

end ChatServer
