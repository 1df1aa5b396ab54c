import ChatServer.Protocol.CommandCodec

/-!
# The grammar of the decoder

The loop of `decode_line` reads the pieces of the line between two `'\r'`, with one `'\n'` skipped
in front of every piece but the first (`readPieces`, `decodeLoop_eq_foldl`). The pieces that are
not empty are its tokens: the first is the name of the command, the others are its fields. A line
without `'\n'` has nothing to skip, so `decode` is the split at `'\r'` followed by the table of
names and arities (`decode_grammar`).

The encoder writes the fields of a command as pieces of its line. A field comes back exactly when
it is not empty, has no `'\r'` and does not start with the `'\n'` that the loop skips
(`codec_roundTrip`).
-/

set_option autoImplicit false
set_option relaxedAutoImplicit false

namespace ChatServer

/-! ### The pieces of a line -/

/-- A piece as the loop reads it after a `'\r'`: one `'\n'` in front is skipped. -/
def skipNewline (piece : Bytes) : Bytes :=
  if piece.head? = some newline then piece.tail else piece

/-- The pieces that the loop of `decode_line` reads, the empty ones too. -/
def readPieces (line : Bytes) : List Bytes :=
  match line.splitOn carriageReturn with
  | [] => []
  | first :: others => first :: others.map skipNewline

/-- What the pieces that are not empty are read as. -/
def DecodeInfo.ofTokens : List Bytes → DecodeInfo
  | [] => {}
  | name :: args => { cmd := name, args := args }

/-- The split of a line is the pieces of the line in front of its first `'\r'` and after it. -/
theorem readPieces_append {front later : Bytes} (hfront : carriageReturn ∉ front) :
    readPieces (front ++ carriageReturn :: later) =
      front :: (later.splitOn carriageReturn).map skipNewline := by
  rw [readPieces, List.splitOn_append_cons_self_of_not_mem hfront]

theorem readPieces_of_notMem {line : Bytes} (hline : carriageReturn ∉ line) :
    readPieces line = [line] := by
  rw [readPieces, List.splitOn_eq_singleton hline]
  rfl

/-- The byte that is skipped is no `'\r'`, so it is skipped in the first piece. -/
theorem splitOn_skipNewline (later : Bytes) : (skipNewline later).splitOn carriageReturn =
    (later.splitOn carriageReturn).modifyHead skipNewline := by
  cases later with
  | nil => rfl
  | cons byte rest =>
    obtain ⟨first, others, hsplit⟩ :=
      List.exists_cons_of_ne_nil (List.splitOn_ne_nil carriageReturn rest)
    rw [List.splitOn_cons_eq_if_modifyHead, hsplit]
    by_cases hnewline : byte = newline
    · subst hnewline
      rw [skipNewline, if_pos List.head?_cons, List.tail_cons, hsplit]
      rfl
    · have hkeep : ∀ piece : Bytes, skipNewline (byte :: piece) = byte :: piece := by
        intro piece
        rw [skipNewline, if_neg]
        rw [List.head?_cons]
        exact fun hsame ↦ hnewline (Option.some.inj hsame)
      rw [hkeep, List.splitOn_cons_eq_if_modifyHead, hsplit]
      split_ifs
      · rfl
      · rw [List.modifyHead_cons, List.modifyHead_cons, hkeep]

/-- The loop reads the pieces of what is left of the line, one after the other. -/
theorem decodeLoop_eq_foldl {fuel : Nat} {rest : Bytes} (hfuel : rest.length ≤ fuel)
    (info : DecodeInfo) :
    decodeLoop fuel rest info = (readPieces rest).foldl DecodeInfo.take info := by
  induction fuel generalizing rest info with
  | zero =>
    obtain rfl : rest = [] := List.length_eq_zero_iff.mp (by omega)
    rfl
  | succ fuel ih =>
    unfold decodeLoop
    cases hdrop : rest.dropWhile fun byte ↦ decide (byte ≠ carriageReturn) with
    | nil =>
      have hreturn : carriageReturn ∉ rest := by
        intro hmem
        exact absurd (List.dropWhile_eq_nil_iff.mp hdrop carriageReturn hmem) (by decide)
      rw [readPieces_of_notMem hreturn]
      rfl
    | cons head later =>
      have hshorter := length_tail_lt hdrop
      have hhead : head = carriageReturn := by
        have hfails := List.head?_dropWhile_not (fun byte ↦ decide (byte ≠ carriageReturn)) rest
        rw [hdrop] at hfails
        simpa using hfails
      have hfront : carriageReturn ∉ rest.takeWhile fun byte ↦ decide (byte ≠ carriageReturn) :=
        fun hmem ↦ absurd (List.mem_takeWhile_imp hmem) (by decide)
      have hrest : (rest.takeWhile fun byte ↦ decide (byte ≠ carriageReturn)) ++
          carriageReturn :: later = rest := by
        subst hhead
        rw [← hdrop]
        exact List.takeWhile_append_dropWhile
      obtain ⟨first, others, hsplit⟩ :=
        List.exists_cons_of_ne_nil (List.splitOn_ne_nil carriageReturn later)
      have hpieces : readPieces rest = (rest.takeWhile fun byte ↦ decide (byte ≠ carriageReturn)) ::
          readPieces (skipNewline later) := by
        conv_lhs => rw [← hrest]
        rw [readPieces_append hfront, readPieces, splitOn_skipNewline, hsplit]
        rfl
      rw [hpieces, List.foldl_cons]
      exact ih (by omega) _

/-- More fuel than bytes changes nothing: the loop has left by then. -/
theorem decodeLoop_eq_of_le {fuel more : Nat} {rest : Bytes} (hfuel : rest.length ≤ fuel)
    (hmore : rest.length ≤ more) (info : DecodeInfo) :
    decodeLoop fuel rest info = decodeLoop more rest info := by
  rw [decodeLoop_eq_foldl hfuel, decodeLoop_eq_foldl hmore]

/-- A token that is empty changes nothing. -/
theorem foldl_take_filter (pieces : List Bytes) (info : DecodeInfo) :
    pieces.foldl DecodeInfo.take info =
      (pieces.filter fun piece ↦ decide (piece ≠ [])).foldl DecodeInfo.take info := by
  induction pieces generalizing info with
  | nil => rfl
  | cons piece rest ih =>
    by_cases hempty : piece = []
    · rw [List.filter_cons_of_neg (by simpa using hempty), List.foldl_cons, DecodeInfo.take,
        if_pos hempty]
      exact ih info
    · rw [List.filter_cons_of_pos (by simpa using hempty), List.foldl_cons, List.foldl_cons]
      exact ih (info.take piece)

/-- Once there is a command name, the later tokens are its arguments. -/
theorem foldl_take {tokens : List Bytes} (htokens : ∀ token ∈ tokens, token ≠ [])
    {info : DecodeInfo} (hcmd : info.cmd ≠ []) :
    tokens.foldl DecodeInfo.take info = { info with args := info.args ++ tokens } := by
  induction tokens generalizing info with
  | nil => rw [List.append_nil, List.foldl_nil]
  | cons token rest ih =>
    have htake : info.take token = { info with args := info.args ++ [token] } := by
      rw [DecodeInfo.take, if_neg (htokens token List.mem_cons_self), if_neg hcmd]
    have hrest := fun other hother ↦ htokens other (List.mem_cons_of_mem token hother)
    have hlater := @ih hrest { info with args := info.args ++ [token] } hcmd
    rw [List.foldl_cons, htake, hlater, List.append_assoc, List.singleton_append]

theorem foldl_take_empty {tokens : List Bytes} (htokens : ∀ token ∈ tokens, token ≠ []) :
    tokens.foldl DecodeInfo.take {} = DecodeInfo.ofTokens tokens := by
  cases tokens with
  | nil => rfl
  | cons name args =>
    have hname := htokens name List.mem_cons_self
    have htake : ({} : DecodeInfo).take name = { cmd := name } := by
      rw [DecodeInfo.take, if_neg hname, if_pos rfl]
    rw [List.foldl_cons, htake,
      foldl_take (fun arg harg ↦ htokens arg (List.mem_cons_of_mem _ harg)) hname]
    rfl

/-- The tokens of a line: its pieces that are not empty. -/
def readTokens (line : Bytes) : List Bytes :=
  (readPieces line).filter fun piece ↦ decide (piece ≠ [])

theorem ne_nil_of_mem_readTokens {line token : Bytes} (htoken : token ∈ readTokens line) :
    token ≠ [] :=
  of_decide_eq_true (List.mem_filter.mp htoken).2

theorem decodeLine_eq (line : Bytes) : decodeLine line = .ofTokens (readTokens line) := by
  rw [decodeLine, decodeLoop_eq_foldl le_rfl, foldl_take_filter]
  exact foldl_take_empty fun token ↦ ne_nil_of_mem_readTokens

/-- `decode` is the table of the commands on the tokens of the line. -/
theorem decode_of_tokens {line name : Bytes} {args : List Bytes}
    (htokens : readTokens (eraseDelimeter line) = name :: args) :
    decode line = DecodeInfo.toCommand { cmd := name, args := args } := by
  have hname : name ≠ [] := ne_nil_of_mem_readTokens (htokens ▸ List.mem_cons_self)
  have hline : eraseDelimeter line ≠ [] := by
    intro hempty
    rw [hempty] at htokens
    cases htokens
  unfold decode
  dsimp only
  rw [if_neg hline, decodeLine_eq, htokens, DecodeInfo.ofTokens, if_neg hname]

theorem decode_of_noTokens {line : Bytes} (htokens : readTokens (eraseDelimeter line) = []) :
    decode line = .error .emptyLine := by
  unfold decode
  dsimp only
  rw [decodeLine_eq, htokens, DecodeInfo.ofTokens, if_pos rfl, ite_self]

/-! ### Where the pieces come from -/

/-- No `'\r'` is in a piece of the split, and no byte that is not in the line. -/
theorem notMem_and_subset_of_mem_splitOn {line piece : Bytes}
    (hpiece : piece ∈ line.splitOn carriageReturn) : carriageReturn ∉ piece ∧ piece ⊆ line := by
  induction line generalizing piece with
  | nil =>
    rw [List.splitOn_nil, List.mem_singleton] at hpiece
    rw [hpiece]
    exact ⟨List.not_mem_nil, List.nil_subset _⟩
  | cons byte rest ih =>
    obtain ⟨first, others, hsplit⟩ :=
      List.exists_cons_of_ne_nil (List.splitOn_ne_nil carriageReturn rest)
    have hrest : ∀ piece ∈ rest.splitOn carriageReturn,
        carriageReturn ∉ piece ∧ piece ⊆ byte :: rest :=
      fun piece hmem ↦ ⟨(ih hmem).1, List.subset_cons_of_subset byte (ih hmem).2⟩
    rw [List.splitOn_cons_eq_if_modifyHead] at hpiece
    split_ifs at hpiece with hreturn
    · rcases List.mem_cons.mp hpiece with hempty | hlater
      · rw [hempty]
        exact ⟨List.not_mem_nil, List.nil_subset _⟩
      · exact hrest piece hlater
    · rw [hsplit, List.modifyHead_cons] at hpiece
      rw [hsplit] at hrest
      rcases List.mem_cons.mp hpiece with hfirst | hlater
      · obtain ⟨hnone, hsubset⟩ := hrest first List.mem_cons_self
        rw [hfirst, List.mem_cons, not_or, List.cons_subset]
        exact ⟨⟨fun hsame ↦ hreturn (beq_iff_eq.mpr hsame.symm), hnone⟩, List.mem_cons_self,
          hsubset⟩
      · exact hrest piece (List.mem_cons_of_mem _ hlater)

theorem skipNewline_subset (piece : Bytes) : skipNewline piece ⊆ piece := by
  unfold skipNewline
  split_ifs
  · exact fun byte ↦ List.mem_of_mem_tail
  · exact List.Subset.refl piece

theorem notMem_and_subset_of_mem_readPieces {line piece : Bytes}
    (hpiece : piece ∈ readPieces line) : carriageReturn ∉ piece ∧ piece ⊆ line := by
  obtain ⟨first, others, hsplit⟩ :=
    List.exists_cons_of_ne_nil (List.splitOn_ne_nil carriageReturn line)
  have hall := fun piece ↦ @notMem_and_subset_of_mem_splitOn line piece
  rw [readPieces, hsplit] at hpiece
  rw [hsplit] at hall
  rcases List.mem_cons.mp hpiece with hfirst | hlater
  · rw [hfirst]
    exact hall first List.mem_cons_self
  · obtain ⟨other, hother, rfl⟩ := List.mem_map.mp hlater
    have hsource := hall other (List.mem_cons_of_mem _ hother)
    exact ⟨fun hmem ↦ hsource.1 (skipNewline_subset other hmem),
      List.Subset.trans (skipNewline_subset other) hsource.2⟩

theorem isPieceOf_of_mem_readTokens {line token : Bytes} (htoken : token ∈ readTokens line) :
    IsPieceOf line token := by
  have hpiece := notMem_and_subset_of_mem_readPieces (List.mem_filter.mp htoken).1
  exact ⟨ne_nil_of_mem_readTokens htoken, hpiece.1, hpiece.2⟩

/-! ### A line without `'\n'` -/

theorem skipNewline_of_head? {piece : Bytes} (hpiece : piece.head? ≠ some newline) :
    skipNewline piece = piece := by
  rw [skipNewline, if_neg hpiece]

theorem readPieces_eq_splitOn {line : Bytes} (hline : newline ∉ line) :
    readPieces line = line.splitOn carriageReturn := by
  obtain ⟨first, others, hsplit⟩ :=
    List.exists_cons_of_ne_nil (List.splitOn_ne_nil carriageReturn line)
  have hkeep : ∀ piece ∈ others, skipNewline piece = piece := by
    intro piece hpiece
    refine skipNewline_of_head? fun hhead ↦ ?_
    have hmem : piece ∈ line.splitOn carriageReturn := hsplit ▸ List.mem_cons_of_mem _ hpiece
    exact hline ((notMem_and_subset_of_mem_splitOn hmem).2 (List.mem_of_head? hhead))
  rw [readPieces, hsplit]
  exact congrArg (first :: ·) ((List.map_congr_left hkeep).trans (List.map_id others))

theorem eraseDelimeter_of_notMem {line : Bytes} (hline : newline ∉ line) :
    eraseDelimeter line = line := by
  rw [eraseDelimeter, if_neg]
  exact fun hlast ↦ hline (List.mem_of_getLast? hlast)

/-! ### The table of the commands -/

section Table

variable {name : Bytes} {args : List Bytes}

/-- What a branch of the table makes of the arguments: the command with these fields, or the error
of a wrong number of them. -/
def IsCommandOf (name : Bytes) (arity : Nat) (args : List Bytes)
    (result : Except DecodeError Command) : Prop :=
  (args.length = arity ∧ ∃ cmd : Command, cmd.name = name ∧ cmd.fields = args ∧ result = .ok cmd) ∨
    (args.length ≠ arity ∧ result = .error .unexpectedArgument)

theorem isCommandOf_decodeNone {command : Command} (hname : command.name = name)
    (hfields : command.fields = []) : IsCommandOf name 0 args (decodeNone command args) := by
  unfold decodeNone
  by_cases hargs : args = []
  · rw [if_pos hargs]
    exact Or.inl ⟨hargs ▸ rfl, command, hname, hfields.trans hargs.symm, rfl⟩
  · rw [if_neg hargs]
    exact Or.inr ⟨fun hlength ↦ hargs (List.length_eq_zero_iff.mp hlength), rfl⟩

theorem isCommandOf_decodeOne {command : Bytes → Command}
    (hname : ∀ field, (command field).name = name)
    (hfields : ∀ field, (command field).fields = [field]) :
    IsCommandOf name 1 args (decodeOne command args) := by
  unfold decodeOne
  split
  · next first => exact Or.inl ⟨rfl, command first, hname first, hfields first, rfl⟩
  · next hargs =>
    refine Or.inr ⟨fun hlength ↦ ?_, rfl⟩
    obtain ⟨first, hfirst⟩ := List.length_eq_one_iff.mp hlength
    exact hargs first hfirst

theorem isCommandOf_decodeTwo {command : Bytes → Bytes → Command}
    (hname : ∀ first second, (command first second).name = name)
    (hfields : ∀ first second, (command first second).fields = [first, second]) :
    IsCommandOf name 2 args (decodeTwo command args) := by
  unfold decodeTwo
  split
  · next first second =>
    exact Or.inl ⟨rfl, command first second, hname first second, hfields first second, rfl⟩
  · next hargs =>
    refine Or.inr ⟨fun hlength ↦ ?_, rfl⟩
    obtain ⟨first, second, hboth⟩ := List.length_eq_two.mp hlength
    exact hargs first second hboth

/-- The branch of a command's own name. -/
theorem toCommand_of_name (cmd : Command) (args : List Bytes) :
    IsCommandOf cmd.name cmd.fields.length args
      (DecodeInfo.toCommand { cmd := cmd.name, args := args }) := by
  cases cmd <;>
    first
    | exact isCommandOf_decodeNone rfl rfl
    | exact isCommandOf_decodeOne (fun _ ↦ rfl) fun _ ↦ rfl
    | exact isCommandOf_decodeTwo (fun _ _ ↦ rfl) fun _ _ ↦ rfl

/-- A name that is in no branch. -/
theorem toCommand_of_unknown (hunknown : ∀ cmd : Command, name ≠ cmd.name) :
    DecodeInfo.toCommand { cmd := name, args := args } = .error .invalidCommand := by
  unfold DecodeInfo.toCommand
  refine (if_neg (hunknown (.cmdSay [] []))).trans ?_
  refine (if_neg (hunknown (.cmdNick []))).trans ?_
  refine (if_neg (hunknown (.cmdResponse []))).trans ?_
  refine (if_neg (hunknown (.cmdLogin [] []))).trans ?_
  refine (if_neg (hunknown (.cmdRegister [] []))).trans ?_
  refine (if_neg (hunknown (.cmdFriendRequest []))).trans ?_
  refine (if_neg (hunknown (.cmdFriendAccept []))).trans ?_
  refine (if_neg (hunknown (.cmdFriendReject []))).trans ?_
  refine (if_neg (hunknown (.cmdFriendRemove []))).trans ?_
  refine (if_neg (hunknown .cmdListFriend)).trans ?_
  refine (if_neg (hunknown .cmdListFriendRequest)).trans ?_
  refine (if_neg (hunknown (.cmdCreateRoom []))).trans ?_
  refine (if_neg (hunknown (.cmdDeleteRoom []))).trans ?_
  refine (if_neg (hunknown (.cmdInviteRoom [] []))).trans ?_
  refine (if_neg (hunknown (.cmdLeaveRoom []))).trans ?_
  refine (if_neg (hunknown .cmdListRoom)).trans ?_
  exact if_neg (hunknown (.cmdHistory [] []))

/-- Two commands of one name have the same number of fields. -/
theorem length_fields_of_name {cmd other : Command} (hname : cmd.name = other.name) :
    cmd.fields.length = other.fields.length := by
  have hbranch := toCommand_of_name other cmd.fields
  rw [← hname, toCommand_name] at hbranch
  rcases hbranch with ⟨hlength, -⟩ | ⟨-, herror⟩
  · exact hlength
  · cases herror

/-- What the table makes of a name and arguments. -/
theorem toCommand_cases (name : Bytes) (args : List Bytes) :
    (∃ cmd : Command, cmd.name = name ∧ cmd.fields = args ∧
      DecodeInfo.toCommand { cmd := name, args := args } = .ok cmd) ∨
    ((∃ cmd : Command, cmd.name = name) ∧
      (∀ cmd : Command, cmd.name = name → cmd.fields.length ≠ args.length) ∧
      DecodeInfo.toCommand { cmd := name, args := args } = .error .unexpectedArgument) ∨
    ((∀ cmd : Command, cmd.name ≠ name) ∧
      DecodeInfo.toCommand { cmd := name, args := args } = .error .invalidCommand) := by
  by_cases hknown : ∃ cmd : Command, cmd.name = name
  · obtain ⟨cmd, rfl⟩ := hknown
    rcases toCommand_of_name cmd args with ⟨-, hcommand⟩ | ⟨hlength, herror⟩
    · exact Or.inl hcommand
    · refine Or.inr (Or.inl ⟨⟨cmd, rfl⟩, fun other hother hsame ↦ hlength ?_, herror⟩)
      rw [← hsame, length_fields_of_name hother]
  · have hunknown : ∀ cmd : Command, cmd.name ≠ name := fun cmd hname ↦ hknown ⟨cmd, hname⟩
    exact Or.inr (Or.inr ⟨hunknown, toCommand_of_unknown fun cmd ↦ (hunknown cmd).symm⟩)

theorem toCommand_eq_ok_iff {cmd : Command} :
    DecodeInfo.toCommand { cmd := name, args := args } = .ok cmd ↔
      cmd.name = name ∧ cmd.fields = args := by
  constructor
  · intro hok
    rcases toCommand_cases name args with ⟨other, hname, hfields, hresult⟩ | ⟨-, -, hresult⟩ |
      ⟨-, hresult⟩
    · obtain rfl := Except.ok.inj (hresult.symm.trans hok)
      exact ⟨hname, hfields⟩
    · cases hresult.symm.trans hok
    · cases hresult.symm.trans hok
  · rintro ⟨rfl, rfl⟩
    exact toCommand_name cmd

theorem toCommand_eq_invalid_iff :
    DecodeInfo.toCommand { cmd := name, args := args } = .error .invalidCommand ↔
      ∀ cmd : Command, cmd.name ≠ name := by
  constructor
  · intro herror
    rcases toCommand_cases name args with ⟨other, -, -, hresult⟩ | ⟨-, -, hresult⟩ |
      ⟨hunknown, -⟩
    · cases hresult.symm.trans herror
    · cases hresult.symm.trans herror
    · exact hunknown
  · intro hunknown
    exact toCommand_of_unknown fun cmd ↦ (hunknown cmd).symm

theorem toCommand_eq_unexpected_iff :
    DecodeInfo.toCommand { cmd := name, args := args } = .error .unexpectedArgument ↔
      (∃ cmd : Command, cmd.name = name) ∧
        ∀ cmd : Command, cmd.name = name → cmd.fields.length ≠ args.length := by
  rcases toCommand_cases name args with ⟨other, hname, hfields, hresult⟩ |
    ⟨hknown, hlength, hresult⟩ | ⟨hunknown, hresult⟩
  · rw [hresult]
    refine ⟨fun herror ↦ (by cases herror), fun hlength ↦ ?_⟩
    exact absurd (congrArg List.length hfields) (hlength.2 other hname)
  · exact ⟨fun _ ↦ ⟨hknown, hlength⟩, fun _ ↦ hresult⟩
  · rw [hresult]
    refine ⟨fun herror ↦ (by cases herror), fun ⟨⟨cmd, hname⟩, _⟩ ↦ ?_⟩
    exact absurd hname (hunknown cmd)

theorem toCommand_ne_emptyLine :
    DecodeInfo.toCommand { cmd := name, args := args } ≠ .error .emptyLine := by
  intro herror
  rcases toCommand_cases name args with ⟨other, -, -, hresult⟩ | ⟨-, -, hresult⟩ | ⟨-, hresult⟩ <;>
    cases hresult.symm.trans herror

end Table

/-! ### What is accepted -/

/-- The pieces of a line split at every `'\r'`, without the empty ones. -/
def nonemptyPieces (line : Bytes) : List Bytes :=
  (line.splitOn carriageReturn).filter fun piece ↦ decide (piece ≠ [])

theorem readTokens_eq_nonemptyPieces {line : Bytes} (hline : newline ∉ line) :
    readTokens (eraseDelimeter line) = nonemptyPieces line := by
  rw [readTokens, eraseDelimeter_of_notMem hline, readPieces_eq_splitOn hline, nonemptyPieces]

/-- A line without `'\n'` is read by the grammar: its pieces that are not empty are a name and the
fields of the command of that name. -/
theorem decode_grammar {line : Bytes} (hline : newline ∉ line) :
    (decode line = .error .emptyLine ↔ nonemptyPieces line = []) ∧
    ∀ (name : Bytes) (args : List Bytes), nonemptyPieces line = name :: args →
      (decode line = .error .invalidCommand ↔ ∀ cmd : Command, cmd.name ≠ name) ∧
      (decode line = .error .unexpectedArgument ↔
        (∃ cmd : Command, cmd.name = name) ∧
          ∀ cmd : Command, cmd.name = name → cmd.fields.length ≠ args.length) ∧
      ∀ cmd : Command, decode line = .ok cmd ↔ cmd.name = name ∧ cmd.fields = args := by
  rw [← readTokens_eq_nonemptyPieces hline]
  constructor
  · refine ⟨fun herror ↦ ?_, decode_of_noTokens⟩
    cases htokens : readTokens (eraseDelimeter line) with
    | nil => rfl
    | cons name args =>
      rw [decode_of_tokens htokens] at herror
      exact absurd herror toCommand_ne_emptyLine
  · intro name args htokens
    rw [decode_of_tokens htokens]
    exact ⟨toCommand_eq_invalid_iff, toCommand_eq_unexpected_iff, fun cmd ↦ toCommand_eq_ok_iff⟩

theorem decode_grammar_say :
    decode (text "\rsay\r\r1\rhello\r") = .ok (.cmdSay (text "1") (text "hello")) :=
  (((decode_grammar (by decide)).2 (text "say") [text "1", text "hello"] (by decide)).2.2 _).mpr
    ⟨rfl, rfl⟩

/-- The fields of a decoded command are pieces of its line. -/
theorem fields_decode {line : Bytes} {cmd : Command} (hok : decode line = .ok cmd) :
    ∀ field ∈ cmd.fields, IsPieceOf line field := by
  have herase : eraseDelimeter line ⊆ line := by
    unfold eraseDelimeter
    split_ifs
    · exact List.dropLast_subset line
    · exact List.Subset.refl line
  intro field hfield
  cases htokens : readTokens (eraseDelimeter line) with
  | nil => cases (decode_of_noTokens htokens).symm.trans hok
  | cons name args =>
    rw [decode_of_tokens htokens, toCommand_eq_ok_iff] at hok
    rw [hok.2] at hfield
    have hpiece := isPieceOf_of_mem_readTokens (htokens ▸ List.mem_cons_of_mem name hfield)
    exact ⟨hpiece.nonempty, hpiece.noReturn, List.Subset.trans hpiece.subset herase⟩

/-- No field of a decoded command is empty. -/
theorem fieldsNonempty_of_decode {line : Bytes} {cmd : Command} (hok : decode line = .ok cmd) :
    cmd.FieldsNonempty :=
  fun field hfield ↦ (fields_decode hok field hfield).nonempty

/-- The fields of a command that was decoded from a line can be read back. -/
theorem fieldsAreTokens_of_decode {line : Bytes} {cmd : Command} (hline : newline ∉ line)
    (hok : decode line = .ok cmd) : cmd.FieldsAreTokens := by
  intro field hfield
  have hpiece := fields_decode hok field hfield
  exact ⟨hpiece.nonempty, hpiece.noReturn, fun hnewline ↦ hline (hpiece.subset hnewline)⟩

/-! ### The round trip -/

/-- A field that comes back from the line it is written to. -/
structure ReadsBack (field : Bytes) : Prop where
  nonempty : field ≠ []
  noReturn : carriageReturn ∉ field
  noLeadingNewline : field.head? ≠ some newline

theorem eraseDelimeter_encode (cmd : Command) : eraseDelimeter (encode cmd) = cmd.line := by
  rw [encode_eq_line, eraseDelimeter, if_pos List.getLast?_concat, List.dropLast_concat]

/-- The words of a line are the pieces it is split into. -/
theorem splitOn_words {word : Bytes} {words : List Bytes} (hword : carriageReturn ∉ word)
    (hwords : ∀ other ∈ words, carriageReturn ∉ other) :
    (word ++ words.flatMap fun other ↦ carriageReturn :: other).splitOn carriageReturn =
      word :: words := by
  induction words generalizing word with
  | nil =>
    rw [List.flatMap_nil, List.append_nil]
    exact List.splitOn_eq_singleton hword
  | cons other rest ih =>
    rw [List.flatMap_cons, List.cons_append, List.splitOn_append_cons_self_of_not_mem hword,
      ih (hwords other List.mem_cons_self) fun later hlater ↦
        hwords later (List.mem_cons_of_mem _ hlater)]

/-- The tokens of a command's line: its name and what is left of its fields. -/
theorem readTokens_line {cmd : Command} (hfields : ∀ field ∈ cmd.fields, carriageReturn ∉ field) :
    readTokens cmd.line = cmd.name ::
      (cmd.fields.map skipNewline).filter fun piece ↦ decide (piece ≠ []) := by
  have hname := isToken_name cmd
  rw [readTokens, readPieces, Command.line, splitOn_words hname.noReturn hfields]
  exact List.filter_cons_of_pos (decide_eq_true hname.nonempty)

/-- A field that is still there after the skip had nothing to skip. -/
theorem eq_of_filter_map_skipNewline {fields : List Bytes}
    (hfields : fields = (fields.map skipNewline).filter fun piece ↦ decide (piece ≠ [])) :
    ∀ field ∈ fields, skipNewline field = field := by
  have hall : (fields.map skipNewline).filter (fun piece ↦ decide (piece ≠ [])) =
      fields.map skipNewline := by
    refine List.filter_sublist.eq_of_length ?_
    rw [← hfields, List.length_map]
  rw [hall] at hfields
  exact fun field hfield ↦ List.map_inj_left.mp (hfields.symm.trans (List.map_id fields).symm)
    field hfield

theorem ReadsBack.of_skipNewline {field : Bytes} (hnonempty : field ≠ [])
    (hreturn : carriageReturn ∉ field) (hskip : skipNewline field = field) : ReadsBack field := by
  refine ⟨hnonempty, hreturn, fun hhead ↦ ?_⟩
  rw [skipNewline, if_pos hhead] at hskip
  obtain ⟨first, later, rfl⟩ := List.exists_cons_of_ne_nil hnonempty
  rw [List.tail_cons] at hskip
  exact absurd (congrArg List.length hskip) (by rw [List.length_cons]; omega)

/-- The line of a command with such fields is read as the command, with its `'\n'` or without. -/
theorem decode_of_readsBack {cmd : Command} {line : Bytes} (hline : eraseDelimeter line = cmd.line)
    (hcmd : ∀ field ∈ cmd.fields, ReadsBack field) : decode line = .ok cmd := by
  have hskip : cmd.fields.map skipNewline = cmd.fields :=
    (List.map_congr_left fun field hfield ↦
      skipNewline_of_head? (hcmd field hfield).noLeadingNewline).trans (List.map_id _)
  have hfilter : cmd.fields.filter (fun piece ↦ decide (piece ≠ [])) = cmd.fields :=
    List.filter_eq_self.mpr fun field hfield ↦ decide_eq_true (hcmd field hfield).nonempty
  have htokens : readTokens (eraseDelimeter line) = cmd.name :: cmd.fields := by
    rw [hline, readTokens_line fun field hfield ↦ (hcmd field hfield).noReturn, hskip, hfilter]
  rw [decode_of_tokens htokens, toCommand_name]

theorem decode_encode_iff (cmd : Command) :
    decode (encode cmd) = .ok cmd ↔ ∀ field ∈ cmd.fields, ReadsBack field := by
  refine ⟨fun hok field hfield ↦ ?_, decode_of_readsBack (eraseDelimeter_encode cmd)⟩
  have hpiece := fun field hfield ↦ fields_decode hok field hfield
  have htokens : readTokens (eraseDelimeter (encode cmd)) = cmd.name ::
      (cmd.fields.map skipNewline).filter fun piece ↦ decide (piece ≠ []) := by
    rw [eraseDelimeter_encode]
    exact readTokens_line fun field hfield ↦ (hpiece field hfield).noReturn
  rw [decode_of_tokens htokens] at hok
  exact .of_skipNewline (hpiece field hfield).nonempty (hpiece field hfield).noReturn
    (eq_of_filter_map_skipNewline (toCommand_eq_ok_iff.mp hok).2 field hfield)

/-- A token has no `'\n'` at all, in front or elsewhere. -/
theorem IsToken.readsBack {field : Bytes} (htoken : IsToken field) : ReadsBack field :=
  ⟨htoken.nonempty, htoken.noReturn, fun hhead ↦ htoken.noNewline (List.mem_of_head? hhead)⟩

/-- A line without its `'\n'` is read as the command that wrote it. -/
theorem decode_line {cmd : Command} (hcmd : cmd.FieldsAreTokens) : decode cmd.line = .ok cmd :=
  decode_of_readsBack (eraseDelimeter_of_notMem (newline_notMem_line hcmd))
    fun field hfield ↦ (hcmd field hfield).readsBack

/-- The round trip of the codec: what the encoder writes is read back exactly for the commands
whose fields read back, and every command that comes from a line is one of them. -/
theorem codec_roundTrip :
    (∀ cmd : Command, decode (encode cmd) = .ok cmd ↔
      ∀ field ∈ cmd.fields, field ≠ [] ∧ carriageReturn ∉ field ∧ field.head? ≠ some newline) ∧
    ∀ (line : Bytes) (cmd : Command), newline ∉ line → decode line = .ok cmd →
      (∀ field ∈ cmd.fields,
        field ≠ [] ∧ carriageReturn ∉ field ∧ field.head? ≠ some newline) ∧
      decode (encode cmd) = decode line := by
  have hiff : ∀ cmd : Command, decode (encode cmd) = .ok cmd ↔ ∀ field ∈ cmd.fields,
      field ≠ [] ∧ carriageReturn ∉ field ∧ field.head? ≠ some newline := by
    intro cmd
    rw [decode_encode_iff]
    refine forall₂_congr fun field _ ↦ ⟨fun hback ↦ ?_, fun hback ↦ ?_⟩
    · exact ⟨hback.nonempty, hback.noReturn, hback.noLeadingNewline⟩
    · exact ⟨hback.1, hback.2.1, hback.2.2⟩
  refine ⟨hiff, fun line cmd hline hok ↦ ?_⟩
  have hback : decode (encode cmd) = .ok cmd := (decode_encode_iff cmd).mpr fun field hfield ↦
    (fieldsAreTokens_of_decode hline hok field hfield).readsBack
  exact ⟨(hiff cmd).mp hback, hback.trans hok.symm⟩

theorem codec_roundTrip_nick :
    decode (encode (.cmdNick (text "ada"))) = decode (text "nick\r\rada") :=
  (codec_roundTrip.2 (text "nick\r\rada") (.cmdNick (text "ada")) (by decide) rfl).2

end ChatServer
