import Muster.Membership

/-!
# How many members a cluster has

Each way of entering adds at most the members it names, and every member that
leaves is reported and no longer counted.  Making a view counts nobody.
-/

namespace Muster.Membership

theorem size_add (membership : Membership) (member : Member) :
    (membership.add member).size = membership.size + 1 := by
  simp [add, size]

theorem size_expect_le (membership : Membership) (address : Address) :
    (membership.expect address).size ≤ membership.size + 1 := by
  unfold expect
  split
  · omega
  · exact Nat.le_of_eq (membership.size_add _)

theorem size_bind_le (membership : Membership) (address : Address) (session : SessionId) :
    (membership.bind address session).size ≤ membership.size + 1 := by
  unfold bind
  split
  · simp [size]
  · exact Nat.le_of_eq (membership.size_add _)

theorem size_foldl_expect_le (bulk : List Address) (membership : Membership) :
    (bulk.foldl expect membership).size ≤ membership.size + bulk.length := by
  induction bulk generalizing membership with
  | nil => simp
  | cons address bulk ih =>
      have hhead := size_expect_le membership address
      have htail := ih (membership.expect address)
      simp only [List.foldl_cons, List.length_cons]
      omega

theorem size_registerView_le (membership : Membership) (bulk : List Address) (address : Address)
    (session : SessionId) :
    (membership.registerView bulk address session).size ≤ membership.size + bulk.length + 1 := by
  have hbound := size_bind_le (bulk.foldl expect membership) address session
  have hseeded := size_foldl_expect_le bulk membership
  unfold registerView
  omega

theorem size_leave_le (membership : Membership) (address : Address) :
    (membership.leave address).1.toList.length + (membership.leave address).2.size ≤
      membership.size := by
  simp only [leave, find?, size]
  induction membership.members with
  | nil => simp
  | cons member members ih =>
      cases hsame : address.same member.address <;> simp [hsame]
      · omega
      · have hfewer := List.length_filter_le (fun m : Member => !address.same m.address) members
        omega

theorem size_leaveAll_le (addresses : List Address) (membership : Membership) :
    (membership.leaveAll addresses).1.length + (membership.leaveAll addresses).2.size ≤
      membership.size := by
  induction addresses generalizing membership with
  | nil => simp [leaveAll]
  | cons address addresses ih =>
      have hhead := size_leave_le membership address
      have htail := ih (membership.leave address).2
      simp only [leaveAll, List.length_append]
      omega

theorem size_removeSession (membership : Membership) (session : SessionId) :
    (membership.removeSession session).1.length + (membership.removeSession session).2.size =
      membership.size := by
  simp only [removeSession, size, List.partition_eq_filter_filter, List.length_map]
  induction membership.members with
  | nil => rfl
  | cons member members ih =>
      by_cases hreached : member.session = some session <;> simp [hreached] at ih ⊢ <;> omega

theorem size_nextView (membership : Membership) : membership.nextView.2.size = membership.size := by
  unfold nextView
  split <;> rfl

end Muster.Membership
