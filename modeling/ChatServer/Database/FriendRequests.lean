import Mathlib.Order.Lattice
import ChatServer.Database.Integrity

/-!
# Friend requests and friendships

A request is a row of `social.friend_requests` keyed by the ordered pair of users, a friendship a
row of `social.friendships` keyed by the unordered pair. This module follows both tables through
every sequence of signups, requests, answers and removals.

Two rows of the code decide what such a history can do. `request_friend` revives an old row only
when its status is `rejected` or `canceled`. An accepted request stays `accepted` when the
friendship it created is removed, so `requestFriend_granted_iff` is exact: the request is refused,
with no friendship and no pending request in the way, if and only if an earlier request of the same
direction was accepted. `accept_friend_request` answers the row of one direction only.
`noPendingBetweenFriends_iff` is exact again: no run has a pending request between friends if and
only if it accepts no request while the opposite one is pending too.

Not modelled here: `add_friend`, which no command of the server calls.
-/

set_option autoImplicit false
set_option relaxedAutoImplicit false

namespace ChatServer

variable {User : Type} [LinearOrder User] {db next : Database User}

/-! ### What one operation does to requests and friendships -/

/-- A friendship row is inserted between the two users and nothing else changes. -/
theorem insertFriendship_eq_ok {now : Int} {first second : User} {result : Bool}
    (hok : Transaction.insertFriendship now first second db = .ok (result, next)) :
    next.friendRequests = db.friendRequests ∧ next.AreFriends first second ∧
      ∀ a b, next.AreFriends a b →
        db.AreFriends a b ∨ (min a b = min first second ∧ max a b = max first second) := by
  obtain ⟨-, ⟨hfriends, -, rfl⟩ | ⟨-, -, -, -, rfl⟩⟩ := Transaction.insertFriendship_cases hok
  · exact ⟨rfl, hfriends, fun a b ↦ Or.inl⟩
  · refine ⟨rfl, ⟨_, List.mem_append_right _ (List.mem_singleton_self _), rfl⟩, ?_⟩
    rintro a b ⟨row, hrow, hkey⟩
    rcases List.mem_append.mp hrow with hold | hnew
    · exact Or.inl ⟨row, hold, hkey⟩
    · obtain rfl := List.mem_singleton.mp hnew
      obtain ⟨hmin, hmax⟩ := Prod.mk.inj hkey
      exact Or.inr ⟨hmin.symm, hmax.symm⟩

/-- Two pairs with the same smaller and the same larger user are the same unordered pair. -/
theorem eq_or_swap_of_min_max {a b first second : User} (hmin : min a b = min first second)
    (hmax : max a b = max first second) :
    (a = first ∧ b = second) ∨ (a = second ∧ b = first) := by
  rcases le_total a b with hab | hab <;> rcases le_total first second with hle | hle <;>
    simp only [min_eq_left, min_eq_right, max_eq_left, max_eq_right, hab, hle] at hmin hmax <;>
    simp [hmin, hmax]

/-- The rows after an answer: an old row that was not pending for the pair, or the pending row of
the pair with its new status. -/
theorem mem_answerRequest {status : RequestStatus} {now : Int} {fromUserId toUserId : User}
    {row : FriendRequestRow User} {rows : List (FriendRequestRow User)} :
    row ∈ (Transaction.answerRequest status now fromUserId toUserId rows).1 ↔
      (row ∈ rows ∧ ¬ (row.key = (fromUserId, toUserId) ∧ row.status = .pending)) ∨
        ∃ old ∈ rows, old.key = (fromUserId, toUserId) ∧ old.status = .pending ∧
          row = { old with status := status, updatedAt := now } := by
  simp only [Transaction.answerRequest, Table.mem_updateWhere, FriendRequestRow.key, Prod.mk.injEq,
    decide_eq_true_eq, decide_eq_false_iff_not, and_assoc]
  exact or_congr_right (exists_congr fun old ↦ and_congr_right fun _ ↦ and_congr_right fun _ ↦
    and_congr_right fun _ ↦ and_congr_right fun _ ↦ eq_comm)

/-- An answer reports a row exactly when the pair had a pending request. -/
theorem answerRequest_returning {status : RequestStatus} {now : Int} {fromUserId toUserId : User} :
    (Transaction.answerRequest status now fromUserId toUserId db.friendRequests).2.isEmpty = false ↔
      db.HasRequest fromUserId toUserId .pending := by
  rw [← Bool.not_eq_true, List.isEmpty_iff, Transaction.answerRequest,
    Table.updateWhere_returning_eq_nil]
  simp only [decide_eq_false_iff_not, not_forall, not_not, Database.HasRequest,
    FriendRequestRow.key, Prod.mk.injEq, and_assoc, exists_prop]

/-- An accepted or rejected request is pending no more, and answering creates no pending request. -/
theorem pending_answerRequest {status : RequestStatus} (hstatus : status ≠ .pending) {now : Int}
    {fromUserId toUserId a b : User} :
    ({ db with friendRequests :=
        (Transaction.answerRequest status now fromUserId toUserId db.friendRequests).1 } :
      Database User).HasRequest a b .pending ↔
      db.HasRequest a b .pending ∧ (a, b) ≠ (fromUserId, toUserId) := by
  constructor
  · rintro ⟨row, hrow, hkey, hpending⟩
    rcases mem_answerRequest.mp hrow with ⟨hold, hother⟩ | ⟨old, -, -, -, rfl⟩
    · exact ⟨⟨row, hold, hkey, hpending⟩, fun hpair ↦ hother ⟨hkey.trans hpair, hpending⟩⟩
    · exact absurd hpending hstatus
  · rintro ⟨⟨row, hrow, hkey, hpending⟩, hpair⟩
    refine ⟨row, mem_answerRequest.mpr (Or.inl ⟨hrow, ?_⟩), hkey, hpending⟩
    rintro ⟨hsame, -⟩
    exact hpair (hkey.symm.trans hsame)

/-- Requesting leaves the friendships alone. A pending request after it was pending before, or is
the new one, and then the two users were not friends. -/
theorem requestFriend_eq_ok {now : Int} {fromUserId toUserId : User} {result : Bool}
    (hok : Transaction.requestFriend now fromUserId toUserId db = .ok (result, next)) :
    next.friendships = db.friendships ∧
      ∀ a b, next.HasRequest a b .pending → db.HasRequest a b .pending ∨
        ((a, b) = (fromUserId, toUserId) ∧ ¬ db.AreFriends a b) := by
  rcases Transaction.requestFriend_cases hok with ⟨-, -, rfl⟩ | ⟨hfriends, -,
    ⟨-, -, -, -, rfl⟩ | ⟨-, revived, rfl, -, rfl⟩⟩
  · exact ⟨rfl, fun a b ↦ Or.inl⟩
  · refine ⟨rfl, ?_⟩
    rintro a b ⟨row, hrow, hkey, hpending⟩
    rcases List.mem_append.mp hrow with hold | hnew
    · exact Or.inl ⟨row, hold, hkey, hpending⟩
    · obtain rfl := List.mem_singleton.mp hnew
      obtain ⟨rfl, rfl⟩ := Prod.mk.inj hkey
      exact Or.inr ⟨rfl, hfriends⟩
  · refine ⟨rfl, ?_⟩
    rintro a b ⟨row, hrow, hkey, hpending⟩
    rcases Table.mem_updateWhere.mp hrow with ⟨hold, -⟩ | ⟨old, hold, hcondition, rfl⟩
    · exact Or.inl ⟨row, hold, hkey, hpending⟩
    · simp only [Bool.and_eq_true, decide_eq_true_eq] at hcondition
      obtain ⟨rfl, rfl⟩ := Prod.mk.inj (hkey.symm.trans hcondition.1)
      exact Or.inr ⟨rfl, hfriends⟩

/-- What accepting does: nothing without a pending request of this direction; with one, that
request is pending no more, the two users are friends, and no other pair becomes friends. -/
theorem acceptFriendRequest_eq_ok {now : Int} {fromUserId toUserId : User} {result : Bool}
    (hok : Transaction.acceptFriendRequest now fromUserId toUserId db = .ok (result, next)) :
    (result = true ↔ db.HasRequest fromUserId toUserId .pending) ∧
      (∀ a b, next.HasRequest a b .pending ↔
        db.HasRequest a b .pending ∧ (a, b) ≠ (fromUserId, toUserId)) ∧
      (db.HasRequest fromUserId toUserId .pending → next.AreFriends fromUserId toUserId) ∧
      ∀ a b, next.AreFriends a b → db.AreFriends a b ∨
        (db.HasRequest fromUserId toUserId .pending ∧
          ((a = fromUserId ∧ b = toUserId) ∨ (a = toUserId ∧ b = fromUserId))) := by
  have haccepted : RequestStatus.accepted ≠ .pending := by decide
  obtain ⟨answered, rfl, hresult, hdone⟩ := Transaction.acceptFriendRequest_cases hok
  have hreported : result = true ↔ db.HasRequest fromUserId toUserId .pending := by
    rw [hresult, Bool.not_eq_true', answerRequest_returning]
  refine ⟨hreported, ?_⟩
  rcases hdone with ⟨rfl, rfl⟩ | ⟨rfl, inserted, hinsert⟩
  · have hnone : ¬ db.HasRequest fromUserId toUserId .pending := fun hpending ↦
      Bool.false_ne_true (hreported.mpr hpending)
    exact ⟨fun a b ↦ pending_answerRequest haccepted, fun hpending ↦ absurd hpending hnone,
      fun a b ↦ Or.inl⟩
  · obtain ⟨hrequests, hfriends, honly⟩ := insertFriendship_eq_ok hinsert
    refine ⟨fun a b ↦ ?_, fun _ ↦ hfriends, fun a b hab ↦ ?_⟩
    · rw [Database.HasRequest, hrequests]
      exact pending_answerRequest haccepted
    · rcases honly a b hab with hold | ⟨hmin, hmax⟩
      · exact Or.inl hold
      · exact Or.inr ⟨hreported.mp rfl, eq_or_swap_of_min_max hmin hmax⟩

/-- With the constraints of the schema an accept never fails: the pending row names two distinct
users. -/
theorem exists_acceptFriendRequest (hvalid : db.Valid) (now : Int) (fromUserId toUserId : User) :
    ∃ result next,
      Transaction.acceptFriendRequest now fromUserId toUserId db = .ok (result, next) := by
  unfold Transaction.acceptFriendRequest
  dsimp only
  split_ifs with hreturning
  · exact ⟨_, _, rfl⟩
  · rw [Bool.not_eq_true, answerRequest_returning] at hreturning
    obtain ⟨row, hrow, hkey, -⟩ := hreturning
    obtain ⟨rfl, rfl⟩ := Prod.mk.inj hkey
    have hdistinct := hvalid.friendRequestsDistinct row hrow
    have husers := hvalid.friendRequestUsers row hrow
    unfold Transaction.insertFriendship
    dsimp only
    rw [if_neg (not_not.mpr (inf_lt_sup.mpr hdistinct)), if_neg (fun hmissing ↦ hmissing.2 husers)]
    exact ⟨_, _, rfl⟩

/-- After a removal the two users are not friends, and every other pair is as before. -/
theorem areFriends_removeFriend {userId friendId : User} {result : Bool}
    (hok : Transaction.removeFriend userId friendId db = .ok (result, next)) (a b : User) :
    next.AreFriends a b ↔ db.AreFriends a b ∧
      ¬ (min a b = min userId friendId ∧ max a b = max userId friendId) := by
  simp only [Transaction.removeFriend, Except.ok.injEq, Prod.mk.injEq] at hok
  obtain ⟨-, rfl⟩ := hok
  simp only [Database.AreFriends, Table.mem_deleteWhere, decide_eq_false_iff_not,
    FriendshipRow.key, Prod.mk.injEq]
  constructor
  · rintro ⟨row, ⟨hrow, hother⟩, hmin, hmax⟩
    exact ⟨⟨row, hrow, hmin, hmax⟩, fun hsame ↦ hother ⟨hmin.trans hsame.1, hmax.trans hsame.2⟩⟩
  · rintro ⟨⟨row, hrow, hmin, hmax⟩, hother⟩
    exact ⟨row, ⟨hrow, fun hsame ↦ hother ⟨hmin.symm.trans hsame.1, hmax.symm.trans hsame.2⟩⟩,
      hmin, hmax⟩

/-! ### Histories of requests -/

/-- The calls of the friend feature: signing up, requesting, answering and removing. -/
def WriteCall.IsFriendCall : WriteCall User → Prop
  | .signup .. | .requestFriend .. | .acceptFriendRequest .. | .rejectFriendRequest ..
  | .removeFriend .. => True
  | _ => False

/-- The call requests the friendship from the first user to the second. -/
def WriteCall.Requests (call : WriteCall User) (fromUserId toUserId : User) : Prop :=
  ∃ now, call = .requestFriend now fromUserId toUserId

/-- The call accepts the request from the first user to the second. -/
def WriteCall.Accepts (call : WriteCall User) (fromUserId toUserId : User) : Prop :=
  ∃ now, call = .acceptFriendRequest now fromUserId toUserId

/-- The call accepts a pending request while the opposite request is pending too. -/
def WriteCall.AcceptsCrossed (call : WriteCall User) (db : Database User) : Prop :=
  ∃ a b, call.Accepts a b ∧ db.HasRequest a b .pending ∧ db.HasRequest b a .pending

/-- No pending request between friends, in either direction. -/
def Database.NoPendingBetweenFriends (db : Database User) : Prop :=
  ∀ a b, db.AreFriends a b → ¬ db.HasRequest a b .pending ∧ ¬ db.HasRequest b a .pending

/-- A request is pending after a call only if it was before or this call made it, and then the two
users were not friends. Accepting a request ends it. -/
theorem pending_run (hvalid : db.Valid) {call : WriteCall User} (hcall : call.IsFriendCall)
    {a b : User}
    (hpending : (call.run db).HasRequest a b .pending) :
    (db.HasRequest a b .pending ∧ ¬ call.Accepts a b) ∨
      (call.Requests a b ∧ ¬ db.AreFriends a b) := by
  cases call with
  | signup id pw => exact Or.inl ⟨hpending, by rintro ⟨now, hcall⟩; cases hcall⟩
  | removeFriend userId friendId =>
    exact Or.inl ⟨hpending, by rintro ⟨now, hcall⟩; cases hcall⟩
  | requestFriend now fromUserId toUserId =>
    have hnot : ¬ (WriteCall.requestFriend now fromUserId toUserId).Accepts a b := by
      rintro ⟨now, hcall⟩
      cases hcall
    simp only [WriteCall.run] at hpending
    cases hrequest : Transaction.requestFriend now fromUserId toUserId db with
    | error error =>
      rw [hrequest] at hpending
      exact Or.inl ⟨hpending, hnot⟩
    | ok value =>
      rw [hrequest] at hpending
      rcases (requestFriend_eq_ok hrequest).2 a b hpending with hold | ⟨hpair, hfriends⟩
      · exact Or.inl ⟨hold, hnot⟩
      · obtain ⟨rfl, rfl⟩ := Prod.mk.inj hpair
        exact Or.inr ⟨⟨now, rfl⟩, hfriends⟩
  | acceptFriendRequest now fromUserId toUserId =>
    obtain ⟨result, next, haccept⟩ := exists_acceptFriendRequest hvalid now fromUserId toUserId
    simp only [WriteCall.run, haccept] at hpending
    obtain ⟨hold, hpair⟩ := ((acceptFriendRequest_eq_ok haccept).2.1 a b).mp hpending
    refine Or.inl ⟨hold, ?_⟩
    rintro ⟨now', hcall⟩
    cases hcall
    exact hpair rfl
  | rejectFriendRequest now fromUserId toUserId =>
    refine Or.inl ⟨((pending_answerRequest (by decide)).mp hpending).1, ?_⟩
    rintro ⟨now, hcall⟩
    cases hcall
  | _ => exact hcall.elim

/-- Two users are friends after a call only if they were before or this call accepted a pending
request of one of them to the other. -/
theorem areFriends_run (hvalid : db.Valid) {call : WriteCall User} (hcall : call.IsFriendCall)
    {a b : User} (hfriends : (call.run db).AreFriends a b) :
    db.AreFriends a b ∨ (call.Accepts a b ∧ db.HasRequest a b .pending) ∨
      (call.Accepts b a ∧ db.HasRequest b a .pending) := by
  cases call with
  | signup id pw => exact Or.inl hfriends
  | rejectFriendRequest now fromUserId toUserId => exact Or.inl hfriends
  | removeFriend userId friendId =>
    exact Or.inl ((areFriends_removeFriend rfl a b).mp hfriends).1
  | requestFriend now fromUserId toUserId =>
    simp only [WriteCall.run] at hfriends
    cases hrequest : Transaction.requestFriend now fromUserId toUserId db with
    | error error =>
      rw [hrequest] at hfriends
      exact Or.inl hfriends
    | ok value =>
      rw [hrequest] at hfriends
      simp only [DbResult.committed, Database.AreFriends, (requestFriend_eq_ok hrequest).1]
        at hfriends
      exact Or.inl hfriends
  | acceptFriendRequest now fromUserId toUserId =>
    obtain ⟨result, next, haccept⟩ := exists_acceptFriendRequest hvalid now fromUserId toUserId
    simp only [WriteCall.run, haccept] at hfriends
    rcases (acceptFriendRequest_eq_ok haccept).2.2.2 a b hfriends with
      hold | ⟨hpending, ⟨rfl, rfl⟩ | ⟨rfl, rfl⟩⟩
    · exact Or.inl hold
    · exact Or.inr (Or.inl ⟨⟨now, rfl⟩, hpending⟩)
    · exact Or.inr (Or.inr ⟨⟨now, rfl⟩, hpending⟩)
  | _ => exact hcall.elim

/-- A call that accepts no crossed request keeps friends free of pending requests. -/
theorem noPendingBetweenFriends_run (hvalid : db.Valid) {call : WriteCall User}
    (hcall : call.IsFriendCall) (hcrossed : ¬ call.AcceptsCrossed db)
    (hclean : db.NoPendingBetweenFriends) : (call.run db).NoPendingBetweenFriends := by
  have hone : ∀ a b, (call.run db).AreFriends a b → ¬ (call.run db).HasRequest a b .pending := by
    intro a b hfriends hpending
    rcases pending_run hvalid hcall hpending with ⟨hold, haccepts⟩ | ⟨⟨now, rfl⟩, hnot⟩
    · rcases areFriends_run hvalid hcall hfriends with
        hbefore | ⟨haccept, -⟩ | ⟨haccept, hopposite⟩
      · exact (hclean a b hbefore).1 hold
      · exact haccepts haccept
      · exact hcrossed ⟨b, a, haccept, hopposite, hold⟩
    · rcases areFriends_run hvalid hcall hfriends with hbefore | ⟨⟨_, hcall⟩, -⟩ | ⟨⟨_, hcall⟩, -⟩
      · exact hnot hbefore
      · cases hcall
      · cases hcall
  exact fun a b hfriends ↦
    ⟨hone a b hfriends, hone b a (Database.areFriends_comm.mp hfriends)⟩

/-- Accepting a crossed request leaves the opposite one pending between two friends. -/
theorem not_noPendingBetweenFriends_run (hvalid : db.Valid) {call : WriteCall User}
    (hcrossed : call.AcceptsCrossed db) : ¬ (call.run db).NoPendingBetweenFriends := by
  obtain ⟨a, b, ⟨now, rfl⟩, hpending, hopposite⟩ := hcrossed
  obtain ⟨result, next, haccept⟩ := exists_acceptFriendRequest hvalid now a b
  obtain ⟨-, hrequests, hfriends, -⟩ := acceptFriendRequest_eq_ok haccept
  have hdistinct : (b, a) ≠ (a, b) := by
    obtain ⟨row, hrow, hkey, -⟩ := hpending
    obtain ⟨rfl, rfl⟩ := Prod.mk.inj hkey
    intro hsame
    exact hvalid.friendRequestsDistinct row hrow (Prod.mk.inj hsame).2
  simp only [WriteCall.run, haccept]
  intro hclean
  exact (hclean a b (hfriends hpending)).2 ((hrequests b a).mpr ⟨hopposite, hdistinct⟩)

/-- Over a sequence of calls that requests nothing from `a` to `b`, a pending request from `a` to
`b` is an old one. -/
theorem pending_foldl {calls : List (WriteCall User)} {a b : User} (hvalid : db.Valid)
    (hcalls : ∀ call ∈ calls, call.IsFriendCall) (hnone : ∀ call ∈ calls, ¬ call.Requests a b)
    (hpending : (calls.foldl (fun db call ↦ call.run db) db).HasRequest a b .pending) :
    db.HasRequest a b .pending := by
  induction calls generalizing db with
  | nil => exact hpending
  | cons call rest ih =>
    have hnext := ih (valid_run hvalid call)
      (fun other hother ↦ hcalls other (List.mem_cons_of_mem _ hother))
      (fun other hother ↦ hnone other (List.mem_cons_of_mem _ hother)) hpending
    rcases pending_run hvalid (hcalls call List.mem_cons_self) hnext with ⟨hold, -⟩ | ⟨hrequest, -⟩
    · exact hold
    · exact absurd hrequest (hnone call List.mem_cons_self)

/-! ### When a request is granted -/

/-- The call removes the friendship of the two users. -/
def WriteCall.Removes (call : WriteCall User) (a b : User) : Prop :=
  call = .removeFriend a b ∨ call = .removeFriend b a

/-- An accepted row blocks the upsert: it conflicts and its status is not one the update revives. -/
theorem requestFriend_of_accepted (hvalid : db.Valid) {now : Int} {a b : User}
    (haccepted : db.HasRequest a b .accepted) {result : Bool}
    (hok : Transaction.requestFriend now a b db = .ok (result, next)) : result = false := by
  obtain ⟨old, hold, hkey, hstatus⟩ := haccepted
  rcases Transaction.requestFriend_cases hok with ⟨-, hfalse, -⟩ | ⟨-, -,
    ⟨hfresh, -⟩ | ⟨-, revived, rfl, hresult, -⟩⟩
  · exact hfalse
  · exact absurd hkey (hfresh old hold)
  · have hnone : ∀ row ∈ db.friendRequests, (decide (row.key = (a, b)) &&
        decide (row.status = .rejected ∨ row.status = .canceled)) = false := by
      intro row hrow
      by_cases hsame : row.key = (a, b)
      · obtain rfl := hvalid.friendRequestsKey.eq_of_key_eq hrow hold (hsame.trans hkey.symm)
        simp [hstatus]
      · rw [decide_eq_false hsame, Bool.false_and]
    rw [hresult, Table.updateWhere_returning_eq_nil.mpr hnone]
    rfl

/-- What the upsert of a request does when the pair has neither a pending nor an accepted row: it
reports a row and leaves a pending one. -/
theorem insertOrUpdate_pending (now : Int) {a b : User} (hpending : ¬ db.HasRequest a b .pending)
    (haccepted : ¬ db.HasRequest a b .accepted) :
    let upserted := Table.insertOrUpdate FriendRequestRow.key
      (⟨a, b, .pending, now, now⟩ : FriendRequestRow User)
      (fun old ↦ decide (old.status = .rejected ∨ old.status = .canceled))
      (fun old ↦ { old with status := .pending, updatedAt := now }) db.friendRequests
    upserted.2 ≠ [] ∧ ∃ row ∈ upserted.1, row.key = (a, b) ∧ row.status = .pending := by
  cases hconflict : Table.conflict FriendRequestRow.key
      (⟨a, b, .pending, now, now⟩ : FriendRequestRow User) db.friendRequests with
  | false =>
    simp [Table.insertOrUpdate, hconflict, FriendRequestRow.key]
  | true =>
    obtain ⟨old, hold, hkey⟩ := Table.conflict_eq_true.mp hconflict
    have hstatus : old.status = .rejected ∨ old.status = .canceled := by
      cases hcase : old.status with
      | pending => exact absurd ⟨old, hold, hkey, hcase⟩ hpending
      | accepted => exact absurd ⟨old, hold, hkey, hcase⟩ haccepted
      | rejected => exact Or.inl rfl
      | canceled => exact Or.inr rfl
    have hmatches : (decide (old.key =
        (⟨a, b, .pending, now, now⟩ : FriendRequestRow User).key) &&
        decide (old.status = .rejected ∨ old.status = .canceled)) = true := by
      rw [decide_eq_true hkey, decide_eq_true hstatus, Bool.and_self]
    dsimp only
    rw [Table.insertOrUpdate, if_pos hconflict]
    refine ⟨?_, { old with status := .pending, updatedAt := now },
      Table.mem_updateWhere.mpr (Or.inr ⟨old, hold, hmatches, rfl⟩), hkey, rfl⟩
    rw [ne_eq, Table.updateWhere_returning_eq_nil]
    intro hnone
    exact absurd (hmatches.symm.trans (hnone old hold)) (by simp)

/-- With no friendship, no pending and no accepted request in the way, a request between two
distinct users is granted and leaves a pending row. -/
theorem exists_requestFriend (now : Int) {a b : User} (ha : db.IsUser a) (hb : db.IsUser b)
    (hab : a ≠ b) (hfriends : ¬ db.AreFriends a b) (hpending : ¬ db.HasRequest a b .pending)
    (haccepted : ¬ db.HasRequest a b .accepted) :
    ∃ next, Transaction.requestFriend now a b db = .ok (true, next) ∧
      next.HasRequest a b .pending := by
  obtain ⟨hreported, hrow⟩ := insertOrUpdate_pending now hpending haccepted
  unfold Transaction.requestFriend
  dsimp only
  rw [if_neg hfriends, if_neg hab, if_neg (fun hforeign ↦ hforeign.2 ⟨ha, hb⟩)]
  rw [← List.isEmpty_eq_false_iff] at hreported
  rw [hreported]
  exact ⟨_, rfl, hrow⟩

/-- An answer leaves every accepted row, and turns a pending row into an accepted one if it
accepts. -/
theorem accepted_answerRequest {status : RequestStatus} {now : Int}
    {fromUserId toUserId a b : User} :
    ({ db with friendRequests :=
        (Transaction.answerRequest status now fromUserId toUserId db.friendRequests).1 } :
      Database User).HasRequest a b .accepted ↔
      db.HasRequest a b .accepted ∨
        (status = .accepted ∧ (a, b) = (fromUserId, toUserId) ∧ db.HasRequest a b .pending) := by
  constructor
  · rintro ⟨row, hrow, hkey, haccepted⟩
    rcases mem_answerRequest.mp hrow with ⟨hold, -⟩ | ⟨old, hold, hpair, hpending, rfl⟩
    · exact Or.inl ⟨row, hold, hkey, haccepted⟩
    · exact Or.inr ⟨haccepted, hkey.symm.trans hpair, old, hold, hkey, hpending⟩
  · rintro (⟨row, hrow, hkey, haccepted⟩ | ⟨rfl, hpair, old, hold, hkey, hpending⟩)
    · refine ⟨row, mem_answerRequest.mpr (Or.inl ⟨hrow, ?_⟩), hkey, haccepted⟩
      rintro ⟨-, hpending⟩
      exact absurd (haccepted.symm.trans hpending) (by decide)
    · exact ⟨_, mem_answerRequest.mpr (Or.inr ⟨old, hold, hkey.trans hpair, hpending, rfl⟩), hkey,
        rfl⟩

/-- Requesting leaves the accepted rows as they are. -/
theorem accepted_requestFriend {now : Int} {fromUserId toUserId : User} {result : Bool}
    (hok : Transaction.requestFriend now fromUserId toUserId db = .ok (result, next)) (a b : User) :
    next.HasRequest a b .accepted ↔ db.HasRequest a b .accepted := by
  rcases Transaction.requestFriend_cases hok with ⟨-, -, rfl⟩ | ⟨-, -,
    ⟨-, -, -, -, rfl⟩ | ⟨-, revived, rfl, -, rfl⟩⟩
  · rfl
  · simp [Database.HasRequest]
  · constructor
    · rintro ⟨row, hrow, hkey, haccepted⟩
      rcases Table.mem_updateWhere.mp hrow with ⟨hold, -⟩ | ⟨old, -, -, rfl⟩
      · exact ⟨row, hold, hkey, haccepted⟩
      · exact absurd haccepted (by simp)
    · rintro ⟨row, hrow, hkey, haccepted⟩
      refine ⟨row, Table.mem_updateWhere.mpr (Or.inl ⟨hrow, ?_⟩), hkey, haccepted⟩
      simp [haccepted]

/-- Accepting adds the accepted row of its pair, if the request was pending, and no other. -/
theorem accepted_acceptFriendRequest {now : Int} {fromUserId toUserId : User} {result : Bool}
    (hok : Transaction.acceptFriendRequest now fromUserId toUserId db = .ok (result, next))
    (a b : User) :
    next.HasRequest a b .accepted ↔ db.HasRequest a b .accepted ∨
      ((a, b) = (fromUserId, toUserId) ∧ db.HasRequest a b .pending) := by
  have hrequests : next.friendRequests =
      (Transaction.answerRequest .accepted now fromUserId toUserId db.friendRequests).1 := by
    obtain ⟨answered, rfl, -, ⟨-, rfl⟩ | ⟨-, inserted, hinsert⟩⟩ :=
      Transaction.acceptFriendRequest_cases hok
    · rfl
    · exact (insertFriendship_eq_ok hinsert).1
  rw [Database.HasRequest, hrequests]
  refine accepted_answerRequest.trans ?_
  simp only [true_and]

/-- The call accepts a pending request from `a` to `b` somewhere in the history. -/
def AcceptedIn (calls : List (WriteCall User)) (a b : User) : Prop :=
  ∃ before call later, calls = before ++ call :: later ∧ call.Accepts a b ∧
    (Database.after before).HasRequest a b .pending

/-- Accepted rows come from accepted requests and never go away. -/
theorem accepted_run (hvalid : db.Valid) {call : WriteCall User} (hcall : call.IsFriendCall)
    {a b : User} :
    (call.run db).HasRequest a b .accepted ↔
      db.HasRequest a b .accepted ∨ (call.Accepts a b ∧ db.HasRequest a b .pending) := by
  have hother : (∀ now, call ≠ .acceptFriendRequest now a b) → ¬ call.Accepts a b :=
    fun hne ⟨now, haccept⟩ ↦ hne now haccept
  cases call with
  | signup id pw => simp [hother, WriteCall.run, Transaction.signup, DbResult.committed,
      Database.HasRequest]
  | removeFriend userId friendId =>
    simp [hother, WriteCall.run, Transaction.removeFriend, DbResult.committed, Database.HasRequest]
  | requestFriend now fromUserId toUserId =>
    rw [WriteCall.run]
    cases hrequest : Transaction.requestFriend now fromUserId toUserId db with
    | error error => simp [hother, DbResult.committed]
    | ok value => simp [hother, DbResult.committed, (accepted_requestFriend hrequest a b)]
  | acceptFriendRequest now fromUserId toUserId =>
    obtain ⟨result, next, haccept⟩ := exists_acceptFriendRequest hvalid now fromUserId toUserId
    simp only [WriteCall.run, haccept, DbResult.committed]
    rw [accepted_acceptFriendRequest haccept]
    refine or_congr_right ⟨?_, ?_⟩
    · rintro ⟨hpair, hpending⟩
      obtain ⟨rfl, rfl⟩ := Prod.mk.inj hpair
      exact ⟨⟨now, rfl⟩, hpending⟩
    · rintro ⟨⟨now', hcall⟩, hpending⟩
      cases hcall
      exact ⟨rfl, hpending⟩
  | rejectFriendRequest now fromUserId toUserId =>
    simp only [WriteCall.run, Transaction.rejectFriendRequest, DbResult.committed]
    rw [accepted_answerRequest]
    simp [hother]
  | _ => exact hcall.elim

/-- The pair has an accepted row exactly when the history accepted a request of the pair. -/
theorem accepted_after {calls : List (WriteCall User)}
    (hcalls : ∀ call ∈ calls, call.IsFriendCall) {a b : User} :
    (Database.after calls).HasRequest a b .accepted ↔ AcceptedIn calls a b := by
  induction calls using List.reverseRecOn with
  | nil => simp [AcceptedIn, Database.HasRequest, Database.after, Database.empty]
  | append_singleton before call ih =>
    rw [Database.after_concat, accepted_run (valid_after before) (hcalls call (by simp)),
      ih (fun other hother ↦ hcalls other (List.mem_append_left _ hother))]
    constructor
    · rintro (⟨earlier, accept, later, rfl, haccept⟩ | haccept)
      · exact ⟨earlier, accept, later ++ [call], by simp, haccept⟩
      · exact ⟨before, call, [], rfl, haccept⟩
    · rintro ⟨earlier, accept, later, hsplit, haccept⟩
      rcases List.eq_nil_or_concat later with rfl | ⟨since, last, rfl⟩
      · obtain ⟨rfl, hlast⟩ := List.append_inj' hsplit rfl
        obtain rfl := List.singleton_inj.mp hlast
        exact Or.inr haccept
      · have hsplit' : before ++ [call] = (earlier ++ accept :: since) ++ [last] := by
          simp [hsplit]
        obtain ⟨rfl, -⟩ := List.append_inj' hsplit' rfl
        exact Or.inl ⟨earlier, accept, since, rfl, haccept⟩

/-- The rows of the pair in `social.friend_requests`. -/
def Database.requestRows (db : Database User) (fromUserId toUserId : User) :
    List (FriendRequestRow User) :=
  db.friendRequests.filter fun row ↦ decide (row.key = (fromUserId, toUserId))

/-- In every database reached by the friend calls, for distinct users who are not friends and with
no pending request from the first to the second: the request is granted, and leaves exactly one row
for the pair, pending, if and only if the history never accepted a request from the first to the
second. -/
theorem requestFriend_granted_iff (calls : List (WriteCall User))
    (hcalls : ∀ call ∈ calls, call.IsFriendCall) (now : Int) (a b : User)
    (ha : (Database.after calls).IsUser a) (hb : (Database.after calls).IsUser b) (hab : a ≠ b)
    (hfriends : ¬ (Database.after calls).AreFriends a b)
    (hpending : ¬ (Database.after calls).HasRequest a b .pending) :
    (∃ next, Transaction.requestFriend now a b (Database.after calls) = .ok (true, next) ∧
      ∃ row, next.requestRows a b = [row] ∧ row.status = .pending) ↔
      ¬ AcceptedIn calls a b := by
  rw [← accepted_after hcalls]
  constructor
  · rintro ⟨next, hgranted, -⟩ haccepted
    exact absurd (requestFriend_of_accepted (valid_after calls) haccepted hgranted) (by simp)
  · intro haccepted
    obtain ⟨next, hgranted, row, hrow, hkey, hstatus⟩ :=
      exists_requestFriend now ha hb hab hfriends hpending haccepted
    refine ⟨next, hgranted, row, ?_, hstatus⟩
    rw [Database.requestRows, ← hkey]
    exact (valid_requestFriend (valid_after calls) hgranted).friendRequestsKey.filter_key_eq hrow

/-- The history of two users: sign up, request, accept, and remove. -/
def befriendAndRemove (a b : Bytes) : List (WriteCall Bytes) :=
  [.signup a (text "pw"), .signup b (text "pw"), .requestFriend 1 a b, .acceptFriendRequest 2 a b,
    .removeFriend a b]

/-- After the removal the second user may still request the first: no row is in the way. -/
theorem requestFriend_granted_after_removal :
    letI := bytewise
    (∃ next, Transaction.requestFriend 3 (text "bob") (text "alice")
        (Database.after (befriendAndRemove (text "alice") (text "bob"))) = .ok (true, next) ∧
      ∃ row, next.requestRows (text "bob") (text "alice") = [row] ∧ row.status = .pending) ↔
      ¬ AcceptedIn (befriendAndRemove (text "alice") (text "bob")) (text "bob") (text "alice") :=
  @requestFriend_granted_iff Bytes bytewise (befriendAndRemove (text "alice") (text "bob"))
    (by simp [befriendAndRemove, WriteCall.IsFriendCall]) 3 (text "bob") (text "alice")
    (by decide) (by decide) (by decide) (by decide) (by decide)

/-- The first user may not: the accepted row of the removed friendship refuses the request of two
users who are neither friends nor have a request pending. -/
theorem requestFriend_refused_after_removal :
    letI := bytewise
    (∀ call ∈ befriendAndRemove (text "alice") (text "bob"), call.IsFriendCall) ∧
      (Database.after (befriendAndRemove (text "alice") (text "bob"))).IsUser (text "alice") ∧
      (Database.after (befriendAndRemove (text "alice") (text "bob"))).IsUser (text "bob") ∧
      text "alice" ≠ text "bob" ∧
      ¬ (Database.after (befriendAndRemove (text "alice") (text "bob"))).AreFriends (text "alice")
        (text "bob") ∧
      ¬ (Database.after (befriendAndRemove (text "alice") (text "bob"))).HasRequest (text "alice")
        (text "bob") .pending ∧
      (Transaction.requestFriend 3 (text "alice") (text "bob")
        (Database.after (befriendAndRemove (text "alice") (text "bob")))).map Prod.fst =
          .ok false := by
  refine ⟨by simp [befriendAndRemove, WriteCall.IsFriendCall], by decide, by decide, by decide,
    by decide, by decide, rfl⟩

/-! ### No pending request between friends -/

/-- In a run of the friend calls these hold after every prefix: no request is pending between
friends, no friend is listed among the requests, and a request older than a removal is never
accepted. They do if and only if the run never accepts a request while the opposite one is
pending. -/
theorem noPendingBetweenFriends_iff (calls : List (WriteCall User))
    (hcalls : ∀ call ∈ calls, call.IsFriendCall) :
    (∀ earlier, earlier <+: calls →
      (Database.after earlier).NoPendingBetweenFriends ∧
      (∀ a, ∀ b ∈ Transaction.listFriendRequests a (Database.after earlier),
        ¬ (Database.after earlier).AreFriends b a) ∧
      ∀ before removal since a b, earlier = before ++ removal :: since → removal.Removes a b →
        (Database.after before).AreFriends a b → (∀ call ∈ since, ¬ call.Requests a b) →
        ∀ now next, Transaction.acceptFriendRequest now a b (Database.after earlier) ≠
          .ok (true, next)) ↔
      ∀ before call later, calls = before ++ call :: later →
        ¬ call.AcceptsCrossed (Database.after before) := by
  constructor
  · intro hclean before call later hsplit hcrossed
    have hprefix : before ++ [call] <+: calls := ⟨later, by simp [hsplit]⟩
    have hafter := (hclean _ hprefix).1
    rw [Database.after_concat] at hafter
    exact not_noPendingBetweenFriends_run (valid_after before) hcrossed hafter
  · intro hcrossed
    have hclean : ∀ earlier, earlier <+: calls →
        (Database.after earlier).NoPendingBetweenFriends := by
      intro earlier
      induction earlier using List.reverseRecOn with
      | nil =>
        intro _ a b hfriends
        obtain ⟨row, hrow, -⟩ := hfriends
        simp [Database.empty] at hrow
      | append_singleton before call ih =>
        rintro ⟨later, hsplit⟩
        have hsplit' : calls = before ++ call :: later := by simp [← hsplit]
        rw [Database.after_concat]
        exact noPendingBetweenFriends_run (valid_after before)
          (hcalls call (by simp [hsplit'])) (hcrossed before call later hsplit')
          (ih ⟨call :: later, hsplit'.symm⟩)
    intro earlier hinitial
    refine ⟨hclean earlier hinitial, ?_, ?_⟩
    · intro a b hlisted hfriends
      simp only [Transaction.listFriendRequests, List.mem_map, List.mem_insertionSort,
        List.mem_filter, decide_eq_true_eq] at hlisted
      obtain ⟨row, ⟨hrow, hto, hpending⟩, hfrom⟩ := hlisted
      exact (hclean earlier hinitial b a hfriends).1 ⟨row, hrow, Prod.ext hfrom hto, hpending⟩
    · intro before removal since a b hsplit hremoves hfriends hnone now next haccept
      -- no request of the pair was pending at the removal, and none was made since
      have hpending := (acceptFriendRequest_eq_ok haccept).1.mp rfl
      have hbefore : before <+: calls :=
        List.IsPrefix.trans ⟨removal :: since, hsplit.symm⟩ hinitial
      have hmem : ∀ call ∈ removal :: since, call.IsFriendCall := fun call hcall ↦
        hcalls call (hinitial.subset (by simp [hsplit, List.mem_cons.mp hcall]))
      have hrequests : ∀ call ∈ removal :: since, ¬ call.Requests a b := by
        intro call hcall
        rcases List.mem_cons.mp hcall with rfl | hcall
        · rintro ⟨now, rfl⟩
          rcases hremoves with hcall | hcall <;> cases hcall
        · exact hnone call hcall
      rw [hsplit, Database.after, List.foldl_append] at hpending
      exact (hclean before hbefore a b hfriends).1
        (pending_foldl (valid_after before) hmem hrequests hpending)

/-- A run that befriends two users over one request and removes them keeps the three properties. -/
theorem noPendingBetweenFriends_befriendAndRemove :
    letI := bytewise
    (∀ earlier, earlier <+: befriendAndRemove (text "alice") (text "bob") →
      (Database.after earlier).NoPendingBetweenFriends ∧
      (∀ a, ∀ b ∈ Transaction.listFriendRequests a (Database.after earlier),
        ¬ (Database.after earlier).AreFriends b a) ∧
      ∀ before removal since a b, earlier = before ++ removal :: since → removal.Removes a b →
        (Database.after before).AreFriends a b → (∀ call ∈ since, ¬ call.Requests a b) →
        ∀ now next, Transaction.acceptFriendRequest now a b (Database.after earlier) ≠
          .ok (true, next)) ↔
      ∀ before call later, befriendAndRemove (text "alice") (text "bob") = before ++ call :: later →
        ¬ call.AcceptsCrossed (Database.after before) :=
  @noPendingBetweenFriends_iff Bytes bytewise (befriendAndRemove (text "alice") (text "bob"))
    (by simp [befriendAndRemove, WriteCall.IsFriendCall])

/-- Two users who request each other, of whom one accepts. -/
def crossedRequests (a b : Bytes) : List (WriteCall Bytes) :=
  [.signup a (text "pw"), .signup b (text "pw"), .requestFriend 1 a b, .requestFriend 2 b a,
    .acceptFriendRequest 3 a b]

/-- After crossed requests the friends have a pending request between them, it is listed, and once
the friendship is removed it restores the friendship without a new request. -/
theorem crossedRequests_pending :
    letI := bytewise
    (∀ call ∈ crossedRequests (text "alice") (text "bob"), call.IsFriendCall) ∧
      (Database.after (crossedRequests (text "alice") (text "bob"))).AreFriends (text "alice")
        (text "bob") ∧
      (Database.after (crossedRequests (text "alice") (text "bob"))).HasRequest (text "bob")
        (text "alice") .pending ∧
      text "bob" ∈ Transaction.listFriendRequests (text "alice")
        (Database.after (crossedRequests (text "alice") (text "bob"))) ∧
      (Transaction.acceptFriendRequest 4 (text "bob") (text "alice")
        (Database.after (crossedRequests (text "alice") (text "bob") ++
          [.removeFriend (text "alice") (text "bob")]))).map Prod.fst = .ok true := by
  refine ⟨by simp [crossedRequests, WriteCall.IsFriendCall], by decide, by decide, by decide, rfl⟩

end ChatServer
