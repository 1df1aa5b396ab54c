import Mathlib.Data.List.DropRight

/-!
# Records of a delimited stream

A stream of symbols in which a delimiter ends each record. `records` are the complete records of
what has arrived, without their delimiters, and `joined` writes records back with one delimiter
each. A reader takes the records out one at a time, in whatever pieces the stream arrives. What it
has taken and what is left in its buffer make up the stream; `records_joined_append` then says that
the records taken, followed by those still in the buffer, are the records of the stream. `remainder`
is what has arrived of the record after the last delimiter, and `allRecords` are the records of a
stream that has ended.
-/

set_option autoImplicit false
set_option relaxedAutoImplicit false

namespace ChatServer.DelimitedStream

variable {Symbol : Type*} [DecidableEq Symbol] (delimiter : Symbol)

/-- The complete records of a stream, in order. -/
def records : List Symbol → List (List Symbol)
  | [] => []
  | symbol :: rest =>
    if symbol = delimiter then [] :: records rest
    else
      match records rest with
      | [] => []
      | record :: later => (symbol :: record) :: later

omit [DecidableEq Symbol] in
/-- The records written one after the other, each with its delimiter. -/
def joined (written : List (List Symbol)) : List Symbol :=
  written.flatMap fun record ↦ record ++ [delimiter]

/-- The first record of a buffer and what follows its delimiter, if the delimiter is there. -/
def cut (buffer : List Symbol) : Option (List Symbol × List Symbol) :=
  match buffer.dropWhile fun symbol ↦ decide (symbol ≠ delimiter) with
  | [] => none
  | _ :: rest => some (buffer.takeWhile fun symbol ↦ decide (symbol ≠ delimiter), rest)

/-- What follows the last delimiter: the record that is not complete. -/
def remainder (stream : List Symbol) : List Symbol :=
  stream.rtakeWhile fun symbol ↦ decide (symbol ≠ delimiter)

/-- The records of a stream that has ended: the last one needs no delimiter. -/
def allRecords (stream : List Symbol) : List (List Symbol) :=
  records delimiter stream ++
    if remainder delimiter stream = [] then [] else [remainder delimiter stream]

variable {delimiter}

omit [DecidableEq Symbol] in
@[simp] theorem joined_nil : joined delimiter [] = [] :=
  rfl

omit [DecidableEq Symbol] in
theorem joined_concat (written : List (List Symbol)) (record : List Symbol) :
    joined delimiter (written ++ [record]) =
      joined delimiter written ++ (record ++ [delimiter]) := by
  rw [joined, List.flatMap_append, List.flatMap_singleton, joined]

omit [DecidableEq Symbol] in
theorem subset_joined {written : List (List Symbol)} {record : List Symbol}
    (hrecord : record ∈ written) : record ⊆ joined delimiter written := by
  intro symbol hsymbol
  exact List.mem_flatMap.mpr ⟨record, hrecord, List.mem_append_left _ hsymbol⟩

theorem records_cons_of_ne {symbol : Symbol} (hne : symbol ≠ delimiter) (rest : List Symbol) :
    records delimiter (symbol :: rest) =
      match records delimiter rest with
      | [] => []
      | record :: later => (symbol :: record) :: later := by
  rw [records, if_neg hne]

/-- A record in front of a stream is its first record. -/
theorem records_record_append {record : List Symbol} (hrecord : delimiter ∉ record)
    (rest : List Symbol) :
    records delimiter (record ++ delimiter :: rest) = record :: records delimiter rest := by
  induction record with
  | nil => rw [List.nil_append, records, if_pos rfl]
  | cons symbol record ih =>
    rw [List.mem_cons, not_or] at hrecord
    rw [List.cons_append, records_cons_of_ne (Ne.symm hrecord.1), ih hrecord.2]

omit [DecidableEq Symbol] in
/-- A stream has only one first record. -/
theorem record_append_inj {record other rest later : List Symbol} (hrecord : delimiter ∉ record)
    (hother : delimiter ∉ other)
    (hstream : record ++ delimiter :: rest = other ++ delimiter :: later) :
    record = other ∧ rest = later := by
  classical
  have hfirst := congrArg (records delimiter) hstream
  rw [records_record_append hrecord, records_record_append hother] at hfirst
  have hsame : record = other := (List.cons.inj hfirst).1
  rw [hsame] at hstream
  exact ⟨hsame, (List.cons.inj (List.append_cancel_left hstream)).2⟩

/-- A stream without a delimiter has no complete record, and only such a stream. -/
theorem records_eq_nil_iff {stream : List Symbol} :
    records delimiter stream = [] ↔ delimiter ∉ stream := by
  induction stream with
  | nil => simp [records]
  | cons symbol rest ih =>
    by_cases hsymbol : symbol = delimiter
    · simp [records, hsymbol]
    · rw [records_cons_of_ne hsymbol, List.mem_cons, not_or, ← ih]
      cases records delimiter rest with
      | nil => simp [Ne.symm hsymbol]
      | cons record later => simp

/-- The records taken out of a stream, followed by those of what is left, are its records. -/
theorem records_joined_append {taken : List (List Symbol)}
    (htaken : ∀ record ∈ taken, delimiter ∉ record) (rest : List Symbol) :
    records delimiter (joined delimiter taken ++ rest) = taken ++ records delimiter rest := by
  induction taken with
  | nil => rfl
  | cons record later ih =>
    have hlater := ih fun other hother ↦ htaken other (List.mem_cons_of_mem _ hother)
    rw [joined, List.flatMap_cons, List.append_assoc, List.append_assoc, List.singleton_append,
      records_record_append (htaken record List.mem_cons_self), ← joined, hlater, List.cons_append]

/-- What was taken of a written stream is its first records; the others are in what is left. -/
theorem eq_append_records {written taken : List (List Symbol)} {rest : List Symbol}
    (hwritten : ∀ record ∈ written, delimiter ∉ record)
    (htaken : ∀ record ∈ taken, delimiter ∉ record)
    (hstream : joined delimiter written = joined delimiter taken ++ rest) :
    written = taken ++ records delimiter rest := by
  have hall := records_joined_append hwritten []
  rw [List.append_nil, hstream, records_joined_append htaken] at hall
  rw [hall, records, List.append_nil]

theorem remainder_of_notMem {stream : List Symbol} (hstream : delimiter ∉ stream) :
    remainder delimiter stream = stream := by
  rw [remainder, List.rtakeWhile_eq_self_iff]
  exact fun symbol hsymbol ↦ decide_eq_true fun hsame ↦ hstream (hsame ▸ hsymbol)

/-- The remainder is in what follows a delimiter. -/
theorem remainder_append_cons (front rest : List Symbol) :
    remainder delimiter (front ++ delimiter :: rest) = remainder delimiter rest := by
  rw [remainder, remainder, List.rtakeWhile, List.rtakeWhile, List.reverse_append,
    List.reverse_cons, List.append_assoc, List.singleton_append, List.takeWhile_append]
  split_ifs with hall
  · rw [List.takeWhile_cons_of_neg (by simp), List.append_nil]
    exact congrArg List.reverse ((List.takeWhile_prefix _).eq_of_length hall).symm
  · rfl

/-- Behind complete records stands the remainder. -/
theorem remainder_joined_append (written : List (List Symbol)) (rest : List Symbol) :
    remainder delimiter (joined delimiter written ++ rest) = remainder delimiter rest := by
  induction written with
  | nil => rfl
  | cons record later ih =>
    rw [joined, List.flatMap_cons, List.append_assoc, List.append_assoc, List.singleton_append,
      remainder_append_cons, ← joined, ih]

theorem cut_eq_none {buffer : List Symbol} : cut delimiter buffer = none ↔ delimiter ∉ buffer := by
  unfold cut
  cases hdrop : buffer.dropWhile fun symbol ↦ decide (symbol ≠ delimiter) with
  | nil =>
    rw [List.dropWhile_eq_nil_iff] at hdrop
    simp only [true_iff]
    intro hmem
    exact absurd (hdrop delimiter hmem) (by simp)
  | cons symbol rest =>
    simp only [reduceCtorEq, false_iff, not_not]
    by_contra hmem
    have hall : buffer.dropWhile (fun symbol ↦ decide (symbol ≠ delimiter)) = [] :=
      List.dropWhile_eq_nil_iff.mpr fun other hother ↦
        decide_eq_true fun hother' ↦ hmem (hother' ▸ hother)
    rw [hall] at hdrop
    cases hdrop

/-- What is cut off the front of a buffer is a record, its delimiter, and the rest. -/
theorem cut_eq_some {buffer record rest : List Symbol}
    (hcut : cut delimiter buffer = some (record, rest)) :
    buffer = record ++ delimiter :: rest ∧ delimiter ∉ record := by
  unfold cut at hcut
  have hhead := List.head?_dropWhile_not (fun symbol ↦ decide (symbol ≠ delimiter)) buffer
  have hsplit :=
    @List.takeWhile_append_dropWhile _ (fun symbol ↦ decide (symbol ≠ delimiter)) buffer
  cases hdrop : buffer.dropWhile fun symbol ↦ decide (symbol ≠ delimiter) with
  | nil =>
    rw [hdrop] at hcut
    cases hcut
  | cons symbol later =>
    rw [hdrop] at hcut hhead hsplit
    simp only [Option.some.injEq, Prod.mk.injEq] at hcut
    obtain ⟨rfl, rfl⟩ := hcut
    have hsymbol : symbol = delimiter := by simpa using hhead
    rw [hsymbol] at hsplit
    refine ⟨hsplit.symm, fun hmem ↦ ?_⟩
    exact absurd (List.mem_takeWhile_imp hmem) (by simp)

/-- Where the delimiter is, the front of the buffer up to it is cut off. -/
theorem cut_of_mem {buffer : List Symbol} (hmem : delimiter ∈ buffer) :
    cut delimiter buffer = some (buffer.takeWhile fun symbol ↦ decide (symbol ≠ delimiter),
      (buffer.dropWhile fun symbol ↦ decide (symbol ≠ delimiter)).tail) := by
  have hcut : cut delimiter buffer ≠ none := fun hnone ↦ cut_eq_none.mp hnone hmem
  unfold cut at hcut ⊢
  cases hdrop : buffer.dropWhile fun symbol ↦ decide (symbol ≠ delimiter) with
  | nil =>
    rw [hdrop] at hcut
    exact absurd rfl hcut
  | cons symbol rest => rfl

/-- The delimiter stands behind the record that is cut off. -/
theorem findIdx?_eq_cut (buffer : List Symbol) :
    buffer.findIdx? (· == delimiter) = (cut delimiter buffer).map fun found ↦ found.1.length := by
  cases hcut : cut delimiter buffer with
  | none =>
    rw [cut_eq_none] at hcut
    rw [Option.map_none, List.findIdx?_eq_none_iff]
    exact fun symbol hsymbol ↦ beq_false_of_ne fun hsame ↦ hcut (hsame ▸ hsymbol)
  | some found =>
    obtain ⟨hbuffer, hrecord⟩ := cut_eq_some hcut
    have hnone : found.1.findIdx? (· == delimiter) = none := by
      rw [List.findIdx?_eq_none_iff]
      exact fun symbol hsymbol ↦ beq_false_of_ne fun hsame ↦ hrecord (hsame ▸ hsymbol)
    rw [hbuffer, List.findIdx?_append, hnone, List.findIdx?_cons, if_pos (beq_self_eq_true _),
      Option.none_or, Option.map_some, Option.map_some, Nat.zero_add]

end ChatServer.DelimitedStream
