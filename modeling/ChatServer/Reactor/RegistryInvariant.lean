import ChatServer.Reactor.EpollRegistry

/-!
# The indices of the registry agree with its connections

The registry keeps the same facts three times: each connection knows its user and its rooms, and
two indices say which connections a user and a room have. `EpollRegistry.Consistent` is their
agreement. Every handler keeps it, also when `append_send` unregisters the connection it writes to
(`Consistent.handleCommand`), and so does the event loop, which between two commands changes the
buffers and the TLS state of a connection but neither its user nor its rooms (`RegistryStep`).

The handlers that only send are read once: `Appending` says that each is one `append_send` after
another, so that what holds of `append_send` and of two steps together holds of them.

`registry_indices` is the agreement after every sequence of commands.
-/

set_option autoImplicit false
set_option relaxedAutoImplicit false

namespace ChatServer

/-! ### Filing and unfiling a connection -/

theorem mem_filed_foldl_remove {fd : Int} (roomIds : List Int) {index : InvertedIndex Int Int}
    {roomId other : Int} :
    other ∈ (roomIds.foldl (fun index roomId ↦ index.remove roomId fd) index).filed roomId ↔
      other ∈ index.filed roomId ∧ ¬ (roomId ∈ roomIds ∧ other = fd) := by
  induction roomIds generalizing index with
  | nil => simp
  | cons first rest ih =>
    rw [List.foldl_cons, ih, InvertedIndex.mem_filed_remove, List.mem_cons]
    grind

theorem noEmptySets_foldl_remove {fd : Int} (roomIds : List Int) {index : InvertedIndex Int Int}
    (hindex : index.NoEmptySets) :
    (roomIds.foldl (fun index roomId ↦ index.remove roomId fd) index).NoEmptySets := by
  induction roomIds generalizing index with
  | nil => exact hindex
  | cons first rest ih => exact ih (hindex.remove first fd)

theorem mem_filed_removeFdFromRoomIndex {order : IterationOrder Int} {si : SocketInfo}
    {index : InvertedIndex Int Int} {roomId other : Int} :
    other ∈ (removeFdFromRoomIndex order si index).2.filed roomId ↔
      other ∈ index.filed roomId ∧ ¬ (roomId ∈ si.joinedRoomIds ∧ other = si.ufd) := by
  rw [removeFdFromRoomIndex, mem_filed_foldl_remove, order.mem_visit]

theorem noEmptySets_removeFdFromRoomIndex {order : IterationOrder Int} {si : SocketInfo}
    {index : InvertedIndex Int Int} (hindex : index.NoEmptySets) :
    (removeFdFromRoomIndex order si index).2.NoEmptySets :=
  noEmptySets_foldl_remove _ hindex

theorem mem_filed_removeFdFromUserIndex {si : SocketInfo} {index : InvertedIndex Bytes Int}
    {userId : Bytes} {other : Int} :
    other ∈ (removeFdFromUserIndex si index).filed userId ↔
      other ∈ index.filed userId ∧ ¬ (userId ≠ [] ∧ userId = si.userId ∧ other = si.ufd) := by
  unfold removeFdFromUserIndex
  by_cases hempty : si.userId = []
  · rw [if_pos hempty, hempty]
    grind
  · rw [if_neg hempty, InvertedIndex.mem_filed_remove]
    have huser : userId = si.userId → userId ≠ [] := fun heq ↦ heq ▸ hempty
    grind

theorem noEmptySets_removeFdFromUserIndex {si : SocketInfo} {index : InvertedIndex Bytes Int}
    (hindex : index.NoEmptySets) : (removeFdFromUserIndex si index).NoEmptySets := by
  unfold removeFdFromUserIndex
  split_ifs
  · exact hindex
  · exact hindex.remove _ _

/-- The loop of `set_fd_joined_rooms` from any state on: the rooms it adds are the positive ones. -/
theorem foldl_setFdJoinedRooms {fd : Int} (roomIds : List Int)
    (state : SocketInfo × InvertedIndex Int Int) :
    let after := roomIds.foldl
      (fun state roomId ↦
        if roomId ≤ 0 then state
        else
          ({ state.1 with joinedRoomIds := insert roomId state.1.joinedRoomIds },
            state.2.add roomId fd)) state
    (∃ joined, after.1 = { state.1 with joinedRoomIds := joined } ∧
      ∀ roomId, roomId ∈ joined ↔
        roomId ∈ state.1.joinedRoomIds ∨ (roomId ∈ roomIds ∧ 0 < roomId)) ∧
      (∀ roomId other, other ∈ after.2.filed roomId ↔
        other ∈ state.2.filed roomId ∨ (roomId ∈ roomIds ∧ 0 < roomId ∧ other = fd)) ∧
      (state.2.NoEmptySets → after.2.NoEmptySets) := by
  induction roomIds generalizing state with
  | nil => exact ⟨⟨state.1.joinedRoomIds, rfl, by simp⟩, by simp, id⟩
  | cons first rest ih =>
    rw [List.foldl_cons]
    by_cases hfirst : first ≤ 0
    · rw [if_pos hfirst]
      obtain ⟨⟨joined, hsi, hjoined⟩, hfiled, hempty⟩ := ih state
      have hskip : ∀ roomId, 0 < roomId → (roomId = first ∨ roomId ∈ rest ↔ roomId ∈ rest) := by
        intro roomId hroom
        constructor
        · rintro (rfl | hrest)
          · omega
          · exact hrest
        · exact Or.inr
      refine ⟨⟨joined, hsi, fun roomId ↦ ?_⟩, fun roomId other ↦ ?_, hempty⟩
      · rw [hjoined, List.mem_cons]
        have := hskip roomId
        grind
      · rw [hfiled, List.mem_cons]
        have := hskip roomId
        grind
    · rw [if_neg hfirst]
      rw [not_le] at hfirst
      obtain ⟨⟨joined, hsi, hjoined⟩, hfiled, hempty⟩ := ih
        ({ state.1 with joinedRoomIds := insert first state.1.joinedRoomIds },
          state.2.add first fd)
      have hkeep : ∀ roomId, roomId = first → 0 < roomId := fun roomId heq ↦ heq ▸ hfirst
      refine ⟨⟨joined, hsi, fun roomId ↦ ?_⟩, fun roomId other ↦ ?_,
        fun hindex ↦ hempty (hindex.add first fd)⟩
      · rw [hjoined, List.mem_cons, Finset.mem_insert]
        have := hkeep roomId
        grind
      · rw [hfiled, List.mem_cons, InvertedIndex.mem_filed_add]
        have := hkeep roomId
        grind

/-- What `set_fd_joined_rooms` leaves: the connection has the positive room ids and no other, and is
filed under exactly these. -/
theorem setFdJoinedRooms_spec (order : IterationOrder Int) (si : SocketInfo) (roomIds : List Int)
    (index : InvertedIndex Int Int) :
    (∃ joined, (setFdJoinedRooms order si roomIds index).1 = { si with joinedRoomIds := joined } ∧
      ∀ roomId, roomId ∈ joined ↔ roomId ∈ roomIds ∧ 0 < roomId) ∧
      (∀ roomId other, other ∈ (setFdJoinedRooms order si roomIds index).2.filed roomId ↔
        (other ∈ index.filed roomId ∧ ¬ (roomId ∈ si.joinedRoomIds ∧ other = si.ufd)) ∨
          (roomId ∈ roomIds ∧ 0 < roomId ∧ other = si.ufd)) ∧
      (index.NoEmptySets → (setFdJoinedRooms order si roomIds index).2.NoEmptySets) := by
  obtain ⟨⟨joined, hsi, hjoined⟩, hfiled, hempty⟩ :=
    @foldl_setFdJoinedRooms si.ufd roomIds (removeFdFromRoomIndex order si index)
  refine ⟨⟨joined, hsi, fun roomId ↦ ?_⟩, fun roomId other ↦ ?_,
    fun hindex ↦ hempty (noEmptySets_removeFdFromRoomIndex hindex)⟩
  · rw [hjoined]
    simp [removeFdFromRoomIndex]
  · exact (hfiled roomId other).trans (or_congr_left mem_filed_removeFdFromRoomIndex)

namespace EpollRegistry

/-! ### The invariant -/

/-- The connections, the two indices and the counter tell the same story. -/
structure Consistent (registry : EpollRegistry) : Prop where
  ufd : ∀ fd si, registry.infos.lookup fd = some si → si.ufd = fd ∧ fd ≠ -1
  rooms : registry.roomOnlineFds.Indexes fun roomId fd ↦
    ∃ si, registry.infos.lookup fd = some si ∧ roomId ∈ si.joinedRoomIds
  users : registry.userOnlineFds.Indexes fun userId fd ↦
    ∃ si, registry.infos.lookup fd = some si ∧ userId ≠ [] ∧ si.userId = userId
  noEmptyRooms : registry.roomOnlineFds.NoEmptySets
  noEmptyUsers : registry.userOnlineFds.NoEmptySets
  positive : ∀ fd si, registry.infos.lookup fd = some si → ∀ roomId ∈ si.joinedRoomIds, 0 < roomId
  count : registry.connectedClientCount = registry.infos.keys.card

theorem consistent_empty : EpollRegistry.empty.Consistent where
  ufd := by simp [EpollRegistry.empty]
  rooms := by simp [EpollRegistry.empty, InvertedIndex.Indexes]
  users := by simp [EpollRegistry.empty, InvertedIndex.Indexes]
  noEmptyRooms := InvertedIndex.noEmptySets_empty
  noEmptyUsers := InvertedIndex.noEmptySets_empty
  positive := by simp [EpollRegistry.empty]
  count := by simp [EpollRegistry.empty]

variable {registry : EpollRegistry} {env : HandlerEnv}

/-! ### Registering and unregistering -/

theorem Consistent.registerFd (hconsistent : registry.Consistent) (fd : Int) (interest : UInt32) :
    (registry.registerFd env fd interest).1.Consistent := by
  unfold EpollRegistry.registerFd
  split_ifs with hfd hmem
  · exact hconsistent
  · exact hconsistent
  · rcases env.registerFault with _ | fault
    · have hnone : registry.infos.lookup fd = none := Finmap.lookup_eq_none.mpr hmem
      have hlookup : ∀ other si,
          (registry.infos.insert fd { interest := interest, ufd := fd }).lookup other = some si →
            (other = fd ∧ si = { interest := interest, ufd := fd }) ∨
              registry.infos.lookup other = some si := by
        intro other si hother
        by_cases hsame : other = fd
        · rw [hsame, Finmap.lookup_insert] at hother
          exact Or.inl ⟨hsame, (Option.some.inj hother).symm⟩
        · rw [Finmap.lookup_insert_of_ne _ hsame] at hother
          exact Or.inr hother
      have hold : ∀ other si, registry.infos.lookup other = some si →
          (registry.infos.insert fd { interest := interest, ufd := fd }).lookup other =
            some si := by
        intro other si hother
        have hne : other ≠ fd := fun hsame ↦ by
          rw [hsame, hnone] at hother
          cases hother
        rw [Finmap.lookup_insert_of_ne _ hne, hother]
      refine ⟨?_, ?_, ?_, hconsistent.noEmptyRooms, hconsistent.noEmptyUsers, ?_, rfl⟩
      · intro other si hother
        rcases hlookup other si hother with ⟨rfl, rfl⟩ | hother
        · exact ⟨rfl, hfd⟩
        · exact hconsistent.ufd other si hother
      · refine hconsistent.rooms.congr fun roomId other ↦ ⟨?_, ?_⟩
        · rintro ⟨si, hother, hroom⟩
          exact ⟨si, hold other si hother, hroom⟩
        · rintro ⟨si, hother, hroom⟩
          rcases hlookup other si hother with ⟨-, rfl⟩ | hother
          · exact absurd hroom (Finset.notMem_empty roomId)
          · exact ⟨si, hother, hroom⟩
      · refine hconsistent.users.congr fun userId other ↦ ⟨?_, ?_⟩
        · rintro ⟨si, hother, huser⟩
          exact ⟨si, hold other si hother, huser⟩
        · rintro ⟨si, hother, hempty, huser⟩
          rcases hlookup other si hother with ⟨-, rfl⟩ | hother
          · exact absurd huser.symm hempty
          · exact ⟨si, hother, hempty, huser⟩
      · intro other si hother roomId hroom
        rcases hlookup other si hother with ⟨-, rfl⟩ | hother
        · exact absurd hroom (Finset.notMem_empty roomId)
        · exact hconsistent.positive other si hother roomId hroom
    · cases fault <;> exact hconsistent

/-- Looking up in a map with one key erased. -/
theorem lookup_erase_eq_some {fd other : Int} {si : SocketInfo} :
    (registry.infos.erase fd).lookup other = some si ↔
      other ≠ fd ∧ registry.infos.lookup other = some si := by
  by_cases hsame : other = fd
  · rw [hsame, Finmap.lookup_erase]
    simp
  · rw [Finmap.lookup_erase_ne hsame]
    exact (and_iff_right hsame).symm

/-- Unregistering takes the connection of a descriptor out of the registry and closes what it owned,
if there is a connection. -/
theorem unregisterFd_cases (env : HandlerEnv) (fd : Int) (registry : EpollRegistry) :
    ((fd = -1 ∨ registry.infos.lookup fd = none) ∧
        registry.unregisterFd env fd = (registry, [])) ∨
      ∃ si, fd ≠ -1 ∧ registry.infos.lookup fd = some si ∧ registry.unregisterFd env fd =
        (⟨registry.infos.erase fd, (removeFdFromRoomIndex env.order si registry.roomOnlineFds).2,
          removeFdFromUserIndex si registry.userOnlineFds, (registry.infos.erase fd).keys.card⟩,
          [.closed si.ufd]) := by
  unfold EpollRegistry.unregisterFd
  split_ifs with hfd
  · exact Or.inl ⟨Or.inl hfd, rfl⟩
  · cases hinfo : registry.infos.lookup fd with
    | none => exact Or.inl ⟨Or.inr rfl, rfl⟩
    | some si => exact Or.inr ⟨si, hfd, rfl, rfl⟩

theorem Consistent.unregisterFd (hconsistent : registry.Consistent) (fd : Int) :
    (registry.unregisterFd env fd).1.Consistent := by
  rcases unregisterFd_cases env fd registry with ⟨-, hsame⟩ | ⟨si, -, hinfo, hafter⟩
  · rw [hsame]
    exact hconsistent
  · rw [hafter]
    obtain ⟨hufd, -⟩ := hconsistent.ufd fd si hinfo
    refine ⟨?_, ?_, ?_, noEmptySets_removeFdFromRoomIndex hconsistent.noEmptyRooms,
      noEmptySets_removeFdFromUserIndex hconsistent.noEmptyUsers, ?_, rfl⟩
    · intro other si' hother
      exact hconsistent.ufd other si' (lookup_erase_eq_some.mp hother).2
    · intro roomId other
      rw [mem_filed_removeFdFromRoomIndex, hconsistent.rooms roomId other, hufd]
      simp only [lookup_erase_eq_some]
      constructor
      · rintro ⟨⟨si', hother, hroom⟩, hkept⟩
        refine ⟨si', ⟨fun hsame ↦ hkept ⟨?_, hsame⟩, hother⟩, hroom⟩
        rw [hsame, hinfo] at hother
        exact Option.some.inj hother ▸ hroom
      · rintro ⟨si', ⟨hne, hother⟩, hroom⟩
        exact ⟨⟨si', hother, hroom⟩, fun hsame ↦ hne hsame.2⟩
    · intro userId other
      rw [mem_filed_removeFdFromUserIndex, hconsistent.users userId other, hufd]
      simp only [lookup_erase_eq_some]
      constructor
      · rintro ⟨⟨si', hother, hempty, huser⟩, hkept⟩
        refine ⟨si', ⟨fun hsame ↦ hkept ⟨hempty, ?_, hsame⟩, hother⟩, hempty, huser⟩
        rw [hsame, hinfo] at hother
        rw [← huser, Option.some.inj hother]
      · rintro ⟨si', ⟨hne, hother⟩, hempty, huser⟩
        exact ⟨⟨si', hother, hempty, huser⟩, fun hsame ↦ hne hsame.2.2⟩
    · intro other si' hother
      exact hconsistent.positive other si' (lookup_erase_eq_some.mp hother).2

/-! ### Changing one connection -/

/-- Looking up after one entry is written. -/
theorem lookup_insert_eq_some {infos : Finmap fun _ : Int ↦ SocketInfo} {fd other : Int}
    {si si' : SocketInfo} :
    (infos.insert fd si).lookup other = some si' ↔
      (other = fd ∧ si = si') ∨ (other ≠ fd ∧ infos.lookup other = some si') := by
  by_cases hsame : other = fd
  · rw [hsame, Finmap.lookup_insert]
    simp
  · rw [Finmap.lookup_insert_of_ne _ hsame]
    simp [hsame]

/-- Writing an entry that was there leaves the set of keys. -/
theorem keys_insert_of_lookup {infos : Finmap fun _ : Int ↦ SocketInfo} {fd : Int}
    {si : SocketInfo} (hinfo : infos.lookup fd = some si) (si' : SocketInfo) :
    (infos.insert fd si').keys = infos.keys := by
  have hmem : fd ∈ infos := Finmap.mem_of_lookup_eq_some hinfo
  ext other
  rw [Finmap.mem_keys, Finmap.mem_keys, Finmap.mem_insert]
  constructor
  · rintro (rfl | hother)
    · exact hmem
    · exact hother
  · exact Or.inr

/-- A connection changes its user and its rooms, and the indices change with it. -/
theorem Consistent.update (hconsistent : registry.Consistent) {fd : Int} {si si' : SocketInfo}
    (hinfo : registry.infos.lookup fd = some si) (hufd : si'.ufd = si.ufd)
    {roomOnlineFds : InvertedIndex Int Int} {userOnlineFds : InvertedIndex Bytes Int}
    (hrooms : ∀ roomId other, other ∈ roomOnlineFds.filed roomId ↔
      (other ≠ fd ∧ other ∈ registry.roomOnlineFds.filed roomId) ∨
        (other = fd ∧ roomId ∈ si'.joinedRoomIds))
    (husers : ∀ userId other, other ∈ userOnlineFds.filed userId ↔
      (other ≠ fd ∧ other ∈ registry.userOnlineFds.filed userId) ∨
        (other = fd ∧ userId ≠ [] ∧ userId = si'.userId))
    (hpositive : ∀ roomId ∈ si'.joinedRoomIds, 0 < roomId)
    (hemptyRooms : roomOnlineFds.NoEmptySets) (hemptyUsers : userOnlineFds.NoEmptySets) :
    (⟨registry.infos.insert fd si', roomOnlineFds, userOnlineFds,
      registry.connectedClientCount⟩ : EpollRegistry).Consistent where
  ufd other si'' hother := by
    rcases lookup_insert_eq_some.mp hother with ⟨rfl, rfl⟩ | ⟨-, hother⟩
    · exact hufd ▸ hconsistent.ufd other si hinfo
    · exact hconsistent.ufd other si'' hother
  rooms roomId other := by
    rw [hrooms, hconsistent.rooms roomId other]
    simp only [lookup_insert_eq_some]
    constructor
    · rintro (⟨hne, si'', hother, hroom⟩ | ⟨rfl, hroom⟩)
      · exact ⟨si'', Or.inr ⟨hne, hother⟩, hroom⟩
      · exact ⟨si', Or.inl ⟨rfl, rfl⟩, hroom⟩
    · rintro ⟨si'', ⟨rfl, rfl⟩ | ⟨hne, hother⟩, hroom⟩
      · exact Or.inr ⟨rfl, hroom⟩
      · exact Or.inl ⟨hne, si'', hother, hroom⟩
  users userId other := by
    rw [husers, hconsistent.users userId other]
    simp only [lookup_insert_eq_some]
    constructor
    · rintro (⟨hne, si'', hother, huser⟩ | ⟨rfl, hempty, huser⟩)
      · exact ⟨si'', Or.inr ⟨hne, hother⟩, huser⟩
      · exact ⟨si', Or.inl ⟨rfl, rfl⟩, hempty, huser.symm⟩
    · rintro ⟨si'', ⟨rfl, rfl⟩ | ⟨hne, hother⟩, hempty, huser⟩
      · exact Or.inr ⟨rfl, hempty, huser.symm⟩
      · exact Or.inl ⟨hne, si'', hother, hempty, huser⟩
  noEmptyRooms := hemptyRooms
  noEmptyUsers := hemptyUsers
  positive other si'' hother := by
    rcases lookup_insert_eq_some.mp hother with ⟨rfl, rfl⟩ | ⟨-, hother⟩
    · exact hpositive
    · exact hconsistent.positive other si'' hother
  count := by
    rw [keys_insert_of_lookup hinfo]
    exact hconsistent.count

/-- The rooms of one connection in the index, and those of the others. -/
theorem Consistent.mem_filed_rooms (hconsistent : registry.Consistent) {fd : Int}
    {si : SocketInfo} (hinfo : registry.infos.lookup fd = some si) (roomId other : Int) :
    other ∈ registry.roomOnlineFds.filed roomId ↔
      (other ≠ fd ∧ other ∈ registry.roomOnlineFds.filed roomId) ∨
        (other = fd ∧ roomId ∈ si.joinedRoomIds) := by
  by_cases hsame : other = fd
  · rw [hsame, hconsistent.rooms roomId fd]
    simp [hinfo]
  · simp [hsame]

/-- The user of one connection in the index, and those of the others. -/
theorem Consistent.mem_filed_users (hconsistent : registry.Consistent) {fd : Int}
    {si : SocketInfo} (hinfo : registry.infos.lookup fd = some si) (userId : Bytes) (other : Int) :
    other ∈ registry.userOnlineFds.filed userId ↔
      (other ≠ fd ∧ other ∈ registry.userOnlineFds.filed userId) ∨
        (other = fd ∧ userId ≠ [] ∧ userId = si.userId) := by
  by_cases hsame : other = fd
  · rw [hsame, hconsistent.users userId fd]
    simp [hinfo, eq_comm]
  · simp [hsame]

/-- Writing an entry with the same user and the same rooms. -/
theorem Consistent.setInfo (hconsistent : registry.Consistent) {fd : Int} {si si' : SocketInfo}
    (hinfo : registry.infos.lookup fd = some si) (hufd : si'.ufd = si.ufd)
    (huser : si'.userId = si.userId) (hjoined : si'.joinedRoomIds = si.joinedRoomIds) :
    (registry.setInfo fd si').Consistent := by
  refine hconsistent.update hinfo hufd ?_ ?_ ?_ hconsistent.noEmptyRooms hconsistent.noEmptyUsers
  · rw [hjoined]
    exact hconsistent.mem_filed_rooms hinfo
  · rw [huser]
    exact hconsistent.mem_filed_users hinfo
  · rw [hjoined]
    exact hconsistent.positive fd si hinfo

/-- The room index after `set_fd_joined_rooms` on a registered connection. -/
theorem Consistent.mem_filed_setFdJoinedRooms (hconsistent : registry.Consistent) {fd : Int}
    {si : SocketInfo} (hinfo : registry.infos.lookup fd = some si) (roomIds : List Int)
    (roomId other : Int) :
    other ∈ (setFdJoinedRooms env.order si roomIds registry.roomOnlineFds).2.filed roomId ↔
      (other ≠ fd ∧ other ∈ registry.roomOnlineFds.filed roomId) ∨
        (other = fd ∧ roomId ∈
          (setFdJoinedRooms env.order si roomIds registry.roomOnlineFds).1.joinedRoomIds) := by
  obtain ⟨⟨joined, hsi, hjoined⟩, hfiled, -⟩ :=
    setFdJoinedRooms_spec env.order si roomIds registry.roomOnlineFds
  rw [hfiled, hsi, (hconsistent.ufd fd si hinfo).1, hconsistent.mem_filed_rooms hinfo]
  dsimp only
  rw [hjoined]
  grind

theorem Consistent.setJoinedRoomsOf (hconsistent : registry.Consistent) (roomIds : List Int)
    (fd : Int) : (registry.setJoinedRoomsOf env roomIds fd).1.Consistent := by
  unfold EpollRegistry.setJoinedRoomsOf
  cases hinfo : registry.infos.lookup fd with
  | none => exact hconsistent
  | some si =>
    obtain ⟨⟨joined, hsi, hjoined⟩, -, hempty⟩ :=
      setFdJoinedRooms_spec env.order si roomIds registry.roomOnlineFds
    refine hconsistent.update hinfo (by rw [hsi])
      (hconsistent.mem_filed_setFdJoinedRooms hinfo _) ?_ ?_ (hempty hconsistent.noEmptyRooms)
      hconsistent.noEmptyUsers
    · rw [hsi]
      exact fun userId other ↦ hconsistent.mem_filed_users hinfo userId other
    · rw [hsi]
      exact fun roomId hroom ↦ ((hjoined roomId).mp hroom).2

theorem Consistent.handleSetUserId (hconsistent : registry.Consistent) (fd : Int)
    (userId : Bytes) : (registry.handleSetUserId env fd userId).1.Consistent := by
  unfold EpollRegistry.handleSetUserId
  cases hinfo : registry.infos.lookup fd with
  | none => exact hconsistent
  | some si =>
    obtain ⟨⟨joined, hsi, hjoined⟩, -, hempty⟩ :=
      setFdJoinedRooms_spec env.order si [] registry.roomOnlineFds
    obtain ⟨hufd, -⟩ := hconsistent.ufd fd si hinfo
    refine hconsistent.update hinfo (by rw [hsi])
      (hconsistent.mem_filed_setFdJoinedRooms hinfo _) ?_ ?_ (hempty hconsistent.noEmptyRooms) ?_
    · intro other owner
      have hremoved : owner ∈ (removeFdFromUserIndex si registry.userOnlineFds).filed other ↔
          owner ≠ fd ∧ owner ∈ registry.userOnlineFds.filed other := by
        rw [mem_filed_removeFdFromUserIndex, hconsistent.mem_filed_users hinfo, hufd]
        grind
      by_cases hlogout : userId = []
      · rw [if_neg (not_not.mpr hlogout), hremoved, hlogout]
        have : ¬ (other ≠ [] ∧ other = []) := fun hboth ↦ hboth.1 hboth.2
        grind
      · rw [if_pos hlogout, InvertedIndex.mem_filed_add, hremoved, hufd]
        have : other = userId → other ≠ [] := fun heq ↦ heq ▸ hlogout
        grind
    · rw [hsi]
      exact fun roomId hroom ↦ ((hjoined roomId).mp hroom).2
    · split_ifs
      · exact (noEmptySets_removeFdFromUserIndex hconsistent.noEmptyUsers).add _ _
      · exact noEmptySets_removeFdFromUserIndex hconsistent.noEmptyUsers

theorem Consistent.handleChangeNickname (hconsistent : registry.Consistent) (fd : Int)
    (nick : Bytes) : (registry.handleChangeNickname fd nick).1.Consistent := by
  unfold EpollRegistry.handleChangeNickname
  cases hinfo : registry.infos.lookup fd with
  | none => exact hconsistent
  | some si => exact hconsistent.setInfo hinfo rfl rfl rfl

/-! ### Sending -/

theorem Consistent.appendSend (hconsistent : registry.Consistent) (fd : Int) (cmd : Command) :
    (registry.appendSend env fd cmd).1.1.Consistent := by
  unfold EpollRegistry.appendSend
  cases hinfo : registry.infos.lookup fd with
  | none => exact hconsistent
  | some si =>
    dsimp only
    split_ifs
    · exact hconsistent.setInfo hinfo rfl rfl rfl
    · refine Consistent.unregisterFd ?_ _
      exact hconsistent.setInfo hinfo rfl rfl rfl
    · exact hconsistent.setInfo hinfo rfl rfl rfl

/-- What every round of a loop does, composed, is what the loop does. -/
theorem forEach_rel {Item : Type} {relation : EpollRegistry → EpollRegistry → List Effect → Prop}
    (hrefl : ∀ registry, relation registry registry [])
    (htrans : ∀ before middle after first second, relation before middle first →
      relation middle after second → relation before after (first ++ second))
    {body : Item → EpollRegistry → EpollRegistry × List Effect}
    (hbody : ∀ item registry, relation registry (body item registry).1 (body item registry).2)
    (items : List Item) (registry : EpollRegistry) :
    relation registry (forEach body items registry).1 (forEach body items registry).2 := by
  induction items generalizing registry with
  | nil => exact hrefl registry
  | cons item rest ih => exact htrans _ _ _ _ _ (hbody item registry) (ih _)

theorem Consistent.forEach {Item : Type}
    {body : Item → EpollRegistry → EpollRegistry × List Effect}
    (hbody : ∀ item registry, registry.Consistent → (body item registry).1.Consistent)
    (items : List Item) (hconsistent : registry.Consistent) :
    (EpollRegistry.forEach body items registry).1.Consistent :=
  @forEach_rel Item (fun before after _ ↦ before.Consistent → after.Consistent) (fun _ ↦ id)
    (fun _ _ _ _ _ hfirst hsecond hbefore ↦ hsecond (hfirst hbefore)) body hbody items registry
    hconsistent

/-! ### Handlers that send -/

/-- What a handler that only sends does: one `append_send` after another, and reads through the
references of connections that are gone. -/
inductive Appending (env : HandlerEnv) (sent : Int → Command → Prop) :
    EpollRegistry → EpollRegistry → List Effect → Prop
  | refl (registry : EpollRegistry) : Appending env sent registry registry []
  | dangling (registry : EpollRegistry) (fd : Int) :
      Appending env sent registry registry [.dangling fd]
  | append (registry : EpollRegistry) (fd : Int) (cmd : Command) (hsent : sent fd cmd) :
      Appending env sent registry (registry.appendSend env fd cmd).1.1
        (registry.appendSend env fd cmd).1.2
  | trans (before middle after : EpollRegistry) (first second : List Effect)
      (hfirst : Appending env sent before middle first)
      (hsecond : Appending env sent middle after second) :
      Appending env sent before after (first ++ second)

section Appending

variable {sent : Int → Command → Prop}

theorem Appending.forEach {Item : Type}
    {body : Item → EpollRegistry → EpollRegistry × List Effect} {items : List Item}
    (hbody : ∀ item ∈ items, ∀ registry,
      Appending env sent registry (body item registry).1 (body item registry).2)
    (registry : EpollRegistry) :
    Appending env sent registry (forEach body items registry).1
      (forEach body items registry).2 := by
  induction items generalizing registry with
  | nil => exact .refl registry
  | cons item rest ih =>
    have hrest := fun other hother ↦ hbody other (List.mem_cons_of_mem item hother)
    exact .trans _ _ _ _ _ (hbody item List.mem_cons_self registry) (ih hrest _)

theorem appending_handleSendOne {fd : Int} {cmd : Command} (hsent : sent fd cmd)
    (registry : EpollRegistry) :
    Appending env sent registry (registry.handleSendOne env fd cmd).1
      (registry.handleSendOne env fd cmd).2 := by
  unfold EpollRegistry.handleSendOne
  cases registry.infos.lookup fd with
  | none => exact .refl registry
  | some si => exact .append registry fd cmd hsent

theorem appending_handleBroadcast {fd : Int} {cmd : Command}
    (hsent : ∀ target, sent target (registry.namedPayload fd cmd)) :
    Appending env sent registry (registry.handleBroadcast env fd cmd).1
      (registry.handleBroadcast env fd cmd).2 := by
  unfold EpollRegistry.handleBroadcast
  refine Appending.forEach (fun target _ registry ↦ ?_) _
  have happend := @Appending.append env sent registry target _ (hsent target)
  dsimp only
  split_ifs
  · exact happend
  · exact .trans _ _ _ _ _ happend (.dangling _ target)

theorem appending_handleSendFriendList {fd : Int} {friendIds : List Bytes}
    (hheader : sent fd (.cmdResponse (text "friends: " ++ toText friendIds.length)))
    (hlines : ∀ friendId ∈ friendIds, ∀ status, status = text "online" ∨ status = text "offline" →
      sent fd (.cmdResponse (text "friend: " ++ friendId ++ text " (" ++ status ++ text ")"))) :
    Appending env sent registry (registry.handleSendFriendList env fd friendIds).1
      (registry.handleSendFriendList env fd friendIds).2 := by
  unfold EpollRegistry.handleSendFriendList
  cases registry.infos.lookup fd with
  | none => exact .refl registry
  | some si =>
    dsimp only
    split_ifs
    · refine .trans _ _ _ _ _ (.append registry fd _ hheader)
        (Appending.forEach (fun friendId hfriend registry ↦ ?_) _)
      refine .append registry fd _ (hlines friendId hfriend _ ?_)
      split_ifs
      · exact Or.inl rfl
      · exact Or.inr rfl
    · exact .append registry fd _ hheader

theorem appending_handleRoomBroadcast {senderFd roomId : Int} {cmd : Command}
    (hsent : ∀ fd, sent fd (registry.namedPayload senderFd cmd)) :
    Appending env sent registry (registry.handleRoomBroadcast env senderFd roomId cmd).1
      (registry.handleRoomBroadcast env senderFd roomId cmd).2 := by
  unfold EpollRegistry.handleRoomBroadcast
  cases registry.roomOnlineFds.lookup roomId with
  | none => exact .refl registry
  | some targets =>
    exact Appending.forEach (fun fd _ registry ↦ appending_handleSendOne (hsent fd) registry)
      registry

theorem Appending.consistent {after : EpollRegistry} {effects : List Effect}
    (happending : Appending env sent registry after effects) (hconsistent : registry.Consistent) :
    after.Consistent := by
  induction happending with
  | refl registry => exact hconsistent
  | dangling registry fd => exact hconsistent
  | append registry fd cmd hsent => exact hconsistent.appendSend fd cmd
  | trans before middle after first second _ _ ihfirst ihsecond =>
    exact ihsecond (ihfirst hconsistent)

end Appending

theorem Consistent.handleSendOne (hconsistent : registry.Consistent) (fd : Int) (cmd : Command) :
    (registry.handleSendOne env fd cmd).1.Consistent :=
  (@appending_handleSendOne env (fun _ _ ↦ True) fd cmd trivial registry).consistent hconsistent

theorem Consistent.handleRoomBroadcast (hconsistent : registry.Consistent) (senderFd roomId : Int)
    (cmd : Command) : (registry.handleRoomBroadcast env senderFd roomId cmd).1.Consistent :=
  (@appending_handleRoomBroadcast registry env (fun _ _ ↦ True) senderFd roomId cmd
    fun _ ↦ trivial).consistent hconsistent

theorem Consistent.handleSetJoinedRoomsForUser (hconsistent : registry.Consistent)
    (userId : Bytes) (roomIds : List Int) :
    (registry.handleSetJoinedRoomsForUser env userId roomIds).1.Consistent := by
  unfold EpollRegistry.handleSetJoinedRoomsForUser
  cases registry.userOnlineFds.lookup userId with
  | none => exact hconsistent
  | some fds =>
    exact hconsistent.forEach (fun fd _ hregistry ↦ hregistry.setJoinedRoomsOf roomIds fd) _

/-! ### Every command -/

/-- Every handler keeps the indices in agreement with the connections. -/
theorem Consistent.handleCommand (hconsistent : registry.Consistent) (env : HandlerEnv)
    (command : RegistryCommand) : (registry.handleCommand env command).1.Consistent := by
  cases command with
  | register fd interest => exact hconsistent.registerFd fd interest
  | unregister fd => exact hconsistent.unregisterFd fd
  | sendOne fd cmd => exact hconsistent.handleSendOne fd cmd
  | broadcast fd cmd =>
    exact (@appending_handleBroadcast registry env (fun _ _ ↦ True) fd cmd
      fun _ ↦ trivial).consistent hconsistent
  | changeNickname fd nick => exact hconsistent.handleChangeNickname fd nick
  | setUserId fd userId => exact hconsistent.handleSetUserId fd userId
  | setJoinedRooms fd roomIds => exact hconsistent.setJoinedRoomsOf roomIds fd
  | setJoinedRoomsForUser userId roomIds =>
    exact hconsistent.handleSetJoinedRoomsForUser userId roomIds
  | sendFriendList fd friendIds =>
    exact (@appending_handleSendFriendList registry env (fun _ _ ↦ True) fd friendIds trivial
      fun _ _ _ _ ↦ trivial).consistent hconsistent
  | roomBroadcast senderFd roomId cmd => exact hconsistent.handleRoomBroadcast senderFd roomId cmd

/-- The fields of a connection that the event loop's own callbacks write. -/
structure TransferState where
  recv : OffsetBuffer
  send : OffsetBuffer
  tls : TlsSession
  isClosed : Bool
  interest : UInt32

/-- Writes the transfer state of a registered connection. -/
def setTransfer (fd : Int) (transfer : TransferState) (registry : EpollRegistry) : EpollRegistry :=
  match registry.infos.lookup fd with
  | none => registry
  | some si =>
    registry.setInfo fd
      { si with
        recv := transfer.recv
        send := transfer.send
        tls := transfer.tls
        isClosed := transfer.isClosed
        interest := transfer.interest }

theorem Consistent.setTransfer (hconsistent : registry.Consistent) (fd : Int)
    (transfer : TransferState) : (registry.setTransfer fd transfer).Consistent := by
  unfold EpollRegistry.setTransfer
  cases hinfo : registry.infos.lookup fd with
  | none => exact hconsistent
  | some si => exact hconsistent.setInfo hinfo rfl rfl rfl

end EpollRegistry

/-- What happens to a registry: a command is handled, or a callback of the event loop writes the
transfer state of a connection. -/
inductive RegistryStep
  | handle (env : HandlerEnv) (command : RegistryCommand)
  | callback (fd : Int) (transfer : EpollRegistry.TransferState)

/-- The registry after one step. -/
def RegistryStep.apply (registry : EpollRegistry) : RegistryStep → EpollRegistry
  | .handle env command => (registry.handleCommand env command).1
  | .callback fd transfer => registry.setTransfer fd transfer

/-- The registry after a sequence of steps. -/
def EpollRegistry.after (steps : List RegistryStep) : EpollRegistry :=
  steps.foldl RegistryStep.apply EpollRegistry.empty

theorem EpollRegistry.consistent_after (steps : List RegistryStep) :
    (EpollRegistry.after steps).Consistent := by
  induction steps using List.reverseRecOn with
  | nil => exact consistent_empty
  | append_singleton steps step ih =>
    rw [EpollRegistry.after, List.foldl_append, ← EpollRegistry.after, List.foldl_cons,
      List.foldl_nil]
    cases step with
    | handle env command => exact ih.handleCommand env command
    | callback fd transfer => exact ih.setTransfer fd transfer

/-- In every registry that any sequence of steps leads to, whatever `epoll_ctl` answers: a room has
exactly the connections that joined it, a user exactly the connections logged in as that user, no
key is kept without a connection, every indexed room id is positive, and the counter is the number
of connections. So a user is online in the index exactly when some connection is logged in as that
user. -/
theorem registry_indices (steps : List RegistryStep) :
    let registry := EpollRegistry.after steps
    (∀ roomId fd, fd ∈ registry.roomOnlineFds.filed roomId ↔
      ∃ si, registry.infos.lookup fd = some si ∧ roomId ∈ si.joinedRoomIds) ∧
    (∀ userId fd, fd ∈ registry.userOnlineFds.filed userId ↔
      ∃ si, registry.infos.lookup fd = some si ∧ userId ≠ [] ∧ si.userId = userId) ∧
    (∀ roomId fds, registry.roomOnlineFds.lookup roomId = some fds → fds ≠ ∅ ∧ 0 < roomId) ∧
    (∀ userId fds, registry.userOnlineFds.lookup userId = some fds → fds ≠ ∅) ∧
    registry.connectedClientCount = registry.infos.keys.card ∧
    ∀ userId, userId ∈ registry.userOnlineFds ↔
      ∃ fd si, registry.infos.lookup fd = some si ∧ userId ≠ [] ∧ si.userId = userId := by
  have hconsistent := EpollRegistry.consistent_after steps
  refine ⟨hconsistent.rooms, hconsistent.users, ?_, ?_, hconsistent.count, ?_⟩
  · intro roomId fds hfds
    have hnonempty : fds ≠ ∅ := fun hempty ↦ hconsistent.noEmptyRooms roomId (hempty ▸ hfds)
    obtain ⟨fd, hfd⟩ := Finset.nonempty_iff_ne_empty.mpr hnonempty
    rw [← InvertedIndex.filed_of_lookup hfds, hconsistent.rooms roomId fd] at hfd
    obtain ⟨si, hinfo, hroom⟩ := hfd
    exact ⟨hnonempty, hconsistent.positive fd si hinfo roomId hroom⟩
  · intro userId fds hfds hempty
    exact hconsistent.noEmptyUsers userId (hempty ▸ hfds)
  · intro userId
    rw [hconsistent.noEmptyUsers.mem_iff_exists_filed]
    exact exists_congr fun fd ↦ hconsistent.users userId fd

end ChatServer
