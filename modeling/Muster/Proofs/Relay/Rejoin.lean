import Muster.Proofs.Relay.Course
import Muster.Proofs.Relay.Departure

/-!
# Joining again over a new session

A client that has lost its connection joins again over a new one, and the relay
notices the end of the old one at some time of its own.  If it has noticed it
already, the newcomer is let in and stays: what is still under way for the old
session, or for others whose writes fail, spares it.  If it has not, the newcomer
is a member already, its joining is passed over, and the end of the old session
removes it.
-/

namespace Muster

namespace Membership

theorem sessionOf?_of_bound {membership : Membership} {recipient : Recipient}
    (hmember : membership.contains recipient.address = true)
    (hbound : membership.Bound recipient) :
    membership.sessionOf? recipient.address = some recipient.session := by
  obtain ⟨member, hfind⟩ := Option.isSome_iff_exists.mp hmember
  have hsame : recipient.address.same member.address = true := by
    simpa using List.find?_some hfind
  rw [sessionOf?, hfind]
  exact hbound member (List.mem_of_find?_eq_some hfind) (Address.same_iff.mp hsame).symm

theorem contains_of_sessionOf? {membership : Membership} {address : Address}
    {session : SessionId} (hsession : membership.sessionOf? address = some session) :
    membership.contains address = true := by
  obtain ⟨member, hfind, _⟩ := Option.bind_eq_some_iff.mp hsession
  rw [contains, hfind]
  rfl

end Membership

namespace Registry

theorem find?_of_contains_current {registry : Registry} {cluster : String}
    {address : Address}
    (hmember : (registry.current cluster).contains address = true) :
    registry.find? cluster = some (registry.current cluster) := by
  cases hfind : registry.find? cluster with
  | some membership => rw [current_of_find? hfind]
  | none =>
      rw [current_of_find?_none hfind] at hmember
      contradiction

/-- Joining again changes nothing. -/
theorem join_of_contains {registry : Registry} {cluster : String} {address : Address}
    (hmember : (registry.current cluster).contains address = true) (session : SessionId) :
    registry.join cluster address session = (none, registry) := by
  have hfind := find?_of_contains_current hmember
  have hoccupied := Membership.isEmpty_eq_false_of_contains hmember
  simp only [join, withCluster, hfind, enroll, Membership.join?, hmember, if_true,
    store_of_find? hfind hoccupied]

/-- Whether nobody but a recipient is reached through its session. -/
def Sole (registry : Registry) (cluster : String) (recipient : Recipient) : Prop :=
  registry.Throughout fun name membership => ∀ member ∈ membership.members,
    member.session = some recipient.session →
      name = cluster ∧ member.address.uuid = recipient.address.uuid

theorem Sole.perform {registry : Registry} {cluster : String} {recipient : Recipient}
    (hsole : registry.Sole cluster recipient) (operation : Operation) {name : String}
    (hname : operation.cluster? = some name)
    (hbrought : ∀ member, operation.Brings (registry.current name) member →
      member.session = some recipient.session →
        name = cluster ∧ member.address.uuid = recipient.address.uuid) :
    (registry.perform operation).2.Sole cluster recipient := by
  intro other membership hfind member hmember hsession
  by_cases hother : other = name
  · subst hother
    rw [eq_of_find?_perform_self hname hfind] at hmember
    rcases Operation.mem_work hmember with hold | hnew
    · cases hbefore : registry.find? other with
      | some before =>
          rw [current_of_find? hbefore] at hold
          exact hsole other before hbefore member hold hsession
      | none =>
          rw [current_of_find?_none hbefore] at hold
          contradiction
    · exact hbrought member hnew hsession
  · rw [find?_perform_of_ne hname hother] at hfind
    exact hsole other membership hfind member hmember hsession

end Registry

/-- Whether a piece of work leaves a recipient and its session alone. -/
def Work.Spares (work : Work) (cluster : String) (recipient : Recipient) : Prop :=
  match work with
  | .push change => change.cluster = cluster → ∀ other ∈ change.recipients,
      other.address.uuid = recipient.address.uuid → other.session = recipient.session
  | .evict name addresses => name = cluster → recipient.address.isIn addresses = false
  | .close sessions => recipient.session ∉ sessions
  | _ => False

namespace Relay

/-- What holds of a recipient while work is done that spares it.  Whether it is a member is
settled before. -/
structure Safe (cluster : String) (recipient : Recipient) (isMember : Bool) (relay : Relay)
    (work : List Work) : Prop where
  distinct : relay.registry.DistinctMembers
  present : (relay.registry.current cluster).contains recipient.address = isMember
  bound : relay.registry.Bound cluster recipient
  sole : relay.registry.Sole cluster recipient
  sound : (relay.sessions.get recipient.session).Sound
  spared : ∀ piece ∈ work, piece.Spares cluster recipient

variable {cluster : String} {recipient : Recipient} {isMember : Bool}

/-- A view that is up to date is written to a recipient through the session it is bound to. -/
theorem spares_push {registry : Registry} (hbound : registry.Bound cluster recipient)
    {change : ViewChange} (hupToDate : registry.UpToDate change) :
    (Work.push change).Spares cluster recipient := by
  rintro rfl other hother hsame
  obtain ⟨membership, hfind, _, hrecipients⟩ := hupToDate
  rw [hrecipients, Membership.mem_recipients_nil] at hother
  obtain ⟨member, hmember, hreached⟩ := hother
  obtain ⟨haddress, hsession⟩ := Member.recipient?_eq_some_iff.mp hreached
  have hintact := hbound membership hfind member hmember (by rw [haddress, hsame])
  exact Option.some.inj (hsession.symm.trans hintact)

theorem next_evict (relay : Relay) (name : String) (addresses : List Address) :
    (relay.step (.evict name addresses)).next =
      .close (relay.registry.leaveAll name addresses).1.sessions ::
        ((relay.registry.leaveAll name addresses).1.change.map Work.push).toList :=
  rfl

theorem Safe.push {relay : Relay} {change : ViewChange} {others : List Work}
    (hsafe : Safe cluster recipient isMember relay (.push change :: others)) :
    Safe cluster recipient isMember (relay.step (.push change)).relay
      ((relay.step (.push change)).next ++ others) where
  distinct := hsafe.distinct
  present := hsafe.present
  bound := hsafe.bound
  sole := hsafe.sole
  sound := sound_deliver hsafe.sound _ _
  spared := by
    intro piece hpiece
    rcases List.mem_append.mp hpiece with hnext | hother
    · rw [eq_of_mem_next_spread hnext]
      intro hcluster
      rw [Bool.eq_false_iff]
      intro hlisted
      obtain ⟨address, haddress, hsame⟩ := Address.isIn_iff.mp hlisted
      obtain ⟨failed, hfailed, rfl⟩ := List.mem_map.mp haddress
      have hsession : failed.session = recipient.session :=
        hsafe.spared _ List.mem_cons_self hcluster failed
          ((unreached_sublist _ _ _).subset hfailed) hsame.symm
      apply not_sound_of_mem_unreached hfailed
      rw [hsession]
      exact hsafe.sound
    · exact hsafe.spared piece (List.mem_cons_of_mem _ hother)

theorem Safe.evict {relay : Relay} {name : String} {addresses : List Address}
    {others : List Work}
    (hsafe : Safe cluster recipient isMember relay (.evict name addresses :: others)) :
    Safe cluster recipient isMember (relay.step (.evict name addresses)).relay
      ((relay.step (.evict name addresses)).next ++ others) := by
  have hkept : name = cluster → recipient.address.isIn addresses = false :=
    hsafe.spared _ List.mem_cons_self
  have hbound : (relay.registry.perform (.leaveAll name addresses)).2.Bound cluster recipient :=
    hsafe.bound.perform fun _ member hbrought => hbrought.elim
  constructor
  case distinct => exact hsafe.distinct.perform (.leaveAll name addresses)
  case present => exact (Registry.contains_current_leaveAll hkept).trans hsafe.present
  case bound => exact hbound
  case sole =>
    exact hsafe.sole.perform (.leaveAll name addresses) rfl
      fun member hbrought => hbrought.elim
  case sound => exact hsafe.sound
  case spared =>
    intro piece hpiece
    rcases List.mem_append.mp hpiece with hnext | hother
    · rw [next_evict, Option.toList_map] at hnext
      rcases List.mem_cons.mp hnext with rfl | hpush
      · intro hclosed
        obtain ⟨member, hdeparted, hsession⟩ := List.mem_filterMap.mp hclosed
        obtain ⟨membership, hfind, hmember, hlisted⟩ :=
          (Registry.mem_departed_iff hsafe.distinct).mp hdeparted
        obtain ⟨hname, hsame⟩ := hsafe.sole name membership hfind member hmember hsession
        rw [Address.isIn_congr hsame, hkept hname] at hlisted
        contradiction
      · obtain ⟨change, hchange, rfl⟩ := List.mem_map.mp hpush
        exact spares_push hbound (Registry.upToDate_of_mem_announced
          (.leaveAll name addresses) hchange)
    · exact hsafe.spared piece (List.mem_cons_of_mem _ hother)

theorem Safe.close {relay : Relay} {sessions : List SessionId} {others : List Work}
    (hsafe : Safe cluster recipient isMember relay (.close sessions :: others)) :
    Safe cluster recipient isMember (relay.step (.close sessions)).relay
      ((relay.step (.close sessions)).next ++ others) := by
  have hlater : ∀ piece ∈ others, piece.Spares cluster recipient := fun piece hpiece =>
    hsafe.spared piece (List.mem_cons_of_mem _ hpiece)
  cases sessions with
  | nil =>
      exact ⟨hsafe.distinct, hsafe.present, hsafe.bound, hsafe.sole, hsafe.sound, hlater⟩
  | cons session rest =>
      have hspared : recipient.session ∉ session :: rest :=
        hsafe.spared _ List.mem_cons_self
      rw [List.mem_cons, not_or] at hspared
      obtain ⟨hfirst, hrest⟩ := hspared
      refine ⟨hsafe.distinct, hsafe.present, hsafe.bound, hsafe.sole, ?_, ?_⟩
      · simp only [step]
        rw [Sessions.get_close, if_neg hfirst]
        exact hsafe.sound
      · exact List.forall_mem_cons.mpr ⟨hrest, hlater⟩

theorem Safe.step {relay : Relay} {work : Work} {others : List Work}
    (hsafe : Safe cluster recipient isMember relay (work :: others)) :
    Safe cluster recipient isMember (relay.step work).relay
      ((relay.step work).next ++ others) := by
  cases work with
  | push change => exact hsafe.push
  | evict name addresses => exact hsafe.evict
  | close sessions => exact hsafe.close
  | _ => exact (hsafe.spared _ List.mem_cons_self).elim

theorem Safe.finish {relay : Relay} {work : List Work}
    (hsafe : Safe cluster recipient isMember relay work) :
    Safe cluster recipient isMember (relay.finish work).1 [] := by
  obtain ⟨steps, hcourse⟩ := relay.exists_course work
  exact hcourse.keeps (fun _ _ _ hbefore => hbefore.step) hsafe

/-! ## The end of the old session -/

/-- Once the old session is forgotten, the member that it reached is gone, and what remains to
be done spares the new session. -/
theorem safe_forget {relay : Relay} (hdistinct : relay.registry.DistinctMembers)
    {old : SessionId}
    (hold : (relay.registry.current cluster).sessionOf? recipient.address = some old)
    (hnew : relay.registry.Throughout fun _ membership =>
      ∀ member ∈ membership.members, member.session ≠ some recipient.session)
    (hsound : (relay.sessions.get recipient.session).Sound) :
    Safe cluster recipient false (relay.step (.forget old)).relay
      (relay.step (.forget old)).next := by
  have hfind := Registry.find?_of_contains_current (Membership.contains_of_sessionOf? hold)
  have hmembers : (relay.registry.current cluster).Distinct := hdistinct cluster _ hfind
  have hlisted : cluster ∈ relay.registry.clusters.map Prod.fst :=
    List.mem_map.mpr ⟨_, mem_of_lookup hfind, rfl⟩
  have hgone : ∀ membership,
      (relay.step (.forget old)).relay.registry.find? cluster = some membership →
      ∀ member ∈ membership.members, member.address.uuid ≠ recipient.address.uuid := by
    intro membership hafter member hmember hsame
    have hbefore := Registry.mem_removeSession hafter member hmember
    exact Registry.unbound_removeSession hlisted hafter member hmember
      (hmembers.bound_of_sessionOf? hold member hbefore hsame)
  have hbound : (relay.step (.forget old)).relay.registry.Bound cluster recipient :=
    fun membership hafter member hmember hsame =>
      (hgone membership hafter member hmember hsame).elim
  constructor
  case distinct =>
    exact hdistinct.perform (.removeSession old (relay.registry.clusters.map Prod.fst))
  case present =>
    rw [Bool.eq_false_iff]
    intro hstays
    obtain ⟨member, hmember, hsame⟩ := Membership.exists_mem_of_contains hstays
    exact hgone _ (Registry.find?_of_contains_current hstays) member hmember hsame
  case bound => exact hbound
  case sole =>
    have hstill : (relay.step (.forget old)).relay.registry.Throughout fun _ membership =>
        ∀ member ∈ membership.members, member.session ≠ some recipient.session := by
      refine hnew.removeSession (fun name before hbefore member hmember => ?_)
        (relay.registry.clusters.map Prod.fst)
      rw [Membership.members_dismissSession] at hmember
      exact hbefore member (List.mem_filter.mp hmember).1
    intro name membership hafter member hmember hsession
    exact (hstill name membership hafter member hmember hsession).elim
  case sound => exact hsound
  case spared =>
    intro piece hpiece
    obtain ⟨change, hchange, rfl⟩ := List.mem_map.mp hpiece
    exact spares_push hbound (Registry.upToDate_of_mem_announced
      (.removeSession old (relay.registry.clusters.map Prod.fst)) hchange)

theorem Safe.join {relay : Relay} (hsafe : Safe cluster recipient isMember relay []) :
    Safe cluster recipient true
      (relay.step (.serve recipient.session (.join ⟨cluster, recipient.address⟩))).relay
      (relay.step (.serve recipient.session (.join ⟨cluster, recipient.address⟩))).next := by
  let joining : Operation := .join cluster recipient.address recipient.session
  have hbound : (relay.registry.perform joining).2.Bound cluster recipient :=
    hsafe.bound.perform fun _ member hbrought _ => congrArg Member.session hbrought.2
  constructor
  case distinct => exact hsafe.distinct.perform joining
  case present =>
    have hentered : (joining.work cluster (relay.registry.current cluster)).2.contains
        recipient.address = true :=
      Operation.contains_work_of_entrant rfl _
    exact (Membership.contains_congr
      (Registry.members_current_work relay.registry rfl) _).trans hentered
  case bound => exact hbound
  case sole =>
    exact hsafe.sole.perform joining rfl fun member hbrought _ =>
      ⟨rfl, congrArg (fun member => member.address.uuid) hbrought.2⟩
  case sound => exact hsafe.sound
  case spared =>
    intro piece hpiece
    change piece ∈ (Option.map Work.push _).toList at hpiece
    rw [Option.toList_map] at hpiece
    obtain ⟨change, hchange, rfl⟩ := List.mem_map.mp hpiece
    exact spares_push hbound
      (Registry.upToDate_of_mem_announced joining hchange)

theorem Safe.finish_join {relay : Relay} (hsafe : Safe cluster recipient isMember relay []) :
    Safe cluster recipient true
      (relay.finish [.serve recipient.session (.join ⟨cluster, recipient.address⟩)]).1 [] := by
  rw [finish_cons, List.append_nil]
  exact hsafe.join.finish

theorem finish_join_of_contains {relay : Relay} {cluster : String} {address : Address}
    (hmember : (relay.registry.current cluster).contains address = true)
    (session : SessionId) :
    (relay.finish [.serve session (.join ⟨cluster, address⟩)]).1 = relay := by
  rw [finish_cons]
  simp only [step, serve, Registry.join_of_contains hmember, resumeWith, Option.map_none,
    Option.toList_none, List.append_nil, finish_nil]

/-- Whether a member is reached through a session that is open. -/
def Reaches (relay : Relay) (cluster : String) (recipient : Recipient) : Prop :=
  (relay.registry.current cluster).sessionOf? recipient.address = some recipient.session ∧
    (relay.sessions.get recipient.session).isClosed = false

theorem Safe.reaches {relay : Relay} (hsafe : Safe cluster recipient true relay []) :
    relay.Reaches cluster recipient := by
  have hfind := Registry.find?_of_contains_current hsafe.present
  exact ⟨Membership.sessionOf?_of_bound hsafe.present (hsafe.bound _ hfind),
    hsafe.sound.isOpen⟩

/-- A member that joins again over a new session is reached through it if the end of the old
session has been noticed before.  Otherwise its joining changes nothing and the end removes
it, and it takes another joining to bring it back. -/
theorem rejoin_survives_noticed_end (capacity : Nat) (history : List Operation)
    (sessions : Sessions) {cluster : String} {recipient : Recipient} {old : SessionId}
    (hold : (((Registry.empty capacity).after history).current cluster).sessionOf?
      recipient.address = some old)
    (hnew : ((Registry.empty capacity).after history).Throughout fun _ membership =>
      ∀ member ∈ membership.members, member.session ≠ some recipient.session)
    (hsound : (sessions.get recipient.session).Sound) :
    let relay : Relay := ⟨(Registry.empty capacity).after history, sessions⟩
    let ending : List Work := [.forget old]
    let joining : List Work := [.serve recipient.session (.join ⟨cluster, recipient.address⟩)]
    let ended := (relay.finish ending).1
    let joined := (relay.finish joining).1
    (ended.finish joining).1.Reaches cluster recipient ∧
      joined = relay ∧
      ((joined.finish ending).1.registry.current cluster).contains recipient.address = false ∧
      ((joined.finish ending).1.finish joining).1.Reaches cluster recipient := by
  intro relay ending joining ended joined
  have hdistinct : relay.registry.DistinctMembers :=
    (Registry.distinctMembers_empty capacity).after history
  have hended : Safe cluster recipient false ended [] := by
    have hforgotten := (safe_forget hdistinct hold hnew hsound).finish
    change Safe cluster recipient false (relay.finish [.forget old]).1 []
    rw [finish_cons, List.append_nil]
    exact hforgotten
  have hignored : joined = relay :=
    finish_join_of_contains (Membership.contains_of_sessionOf? hold) recipient.session
  have hback : (ended.finish joining).1.Reaches cluster recipient := hended.finish_join.reaches
  refine ⟨hback, hignored, ?_, ?_⟩
  · rw [hignored]
    exact hended.present
  · rw [hignored]
    exact hback

/-- The write to the first member fails on the way, and it is the newcomer alone who is left. -/
theorem rejoin_survives_noticed_end_alone :
    let first := Address.ofUuid ⟨0, 1⟩
    let second := Address.ofUuid ⟨0, 2⟩
    let history : List Operation := [.join "a" first ⟨1⟩, .join "a" second ⟨2⟩]
    let sessions : Sessions := ⟨[(Session.fresh ⟨1⟩).withFates fun _ => .broken]⟩
    let relay : Relay := ⟨(Registry.empty 1).after history, sessions⟩
    let ended := (relay.finish [.forget ⟨2⟩]).1
    let joining : List Work := [.serve ⟨3⟩ (.join ⟨"a", second⟩)]
    (relay.registry.current "a").sessionOf? second = some ⟨2⟩ ∧
      (sessions.get ⟨3⟩).Sound ∧ ended.registry.find? "a" = none ∧
      (ended.finish joining).1.Reaches "a" ⟨second, ⟨3⟩⟩ := by
  intro first second history sessions relay ended joining
  have hold : (relay.registry.current "a").sessionOf? second = some ⟨2⟩ := by decide
  have hsound : (sessions.get ⟨3⟩).Sound := ⟨rfl, fun _ => rfl⟩
  have hnew : ∀ entry ∈ relay.registry.clusters, ∀ member ∈ entry.2.members,
      member.session ≠ some ⟨3⟩ := by decide
  refine ⟨hold, hsound, by decide, ?_⟩
  exact (@rejoin_survives_noticed_end 1 history sessions "a" ⟨second, ⟨3⟩⟩ ⟨2⟩ hold
    (fun _ _ hfind => hnew _ (mem_of_lookup hfind)) hsound).1

/-- The client joins again before the relay notices the end of its old session, and loses its
membership when it does. -/
theorem rejoin_before_end_is_lost :
    ¬∀ (capacity : Nat) (history : List Operation) (sessions : Sessions) (cluster : String)
        (recipient : Recipient) (old : SessionId),
      (((Registry.empty capacity).after history).current cluster).sessionOf?
        recipient.address = some old →
      (((Registry.empty capacity).after history).Throughout fun _ membership =>
        ∀ member ∈ membership.members, member.session ≠ some recipient.session) →
      (sessions.get recipient.session).Sound →
      let relay : Relay := ⟨(Registry.empty capacity).after history, sessions⟩
      let ending : List Work := [.forget old]
      let joining : List Work := [.serve recipient.session (.join ⟨cluster, recipient.address⟩)]
      (((relay.finish ending).1.finish joining).1.registry.current cluster).sessionOf?
          recipient.address = some recipient.session ∧
        (((relay.finish joining).1.finish ending).1.registry.current cluster).sessionOf?
          recipient.address = some recipient.session := by
  intro hclaim
  let address := (Address.ofUuid ⟨0, 65⟩).withName "A"
  let before := (Registry.empty 10000).after [.join "k" address ⟨1⟩]
  have hnew : ∀ entry ∈ before.clusters, ∀ member ∈ entry.2.members,
      member.session ≠ some ⟨2⟩ := by decide
  have hlost := (hclaim 10000 [.join "k" address ⟨1⟩] .empty "k" ⟨address, ⟨2⟩⟩ ⟨1⟩ (by decide)
    (fun _ _ hfind => hnew _ (mem_of_lookup hfind)) ⟨rfl, fun _ => rfl⟩).2
  exact absurd hlost (by decide)

end Relay

end Muster
