import Muster.Registry.Population
import Muster.Relay.Work

/-!
# Work comes to an end

Every step lowers the effort.  Members weigh eight steps each: one that enters
is paid for by the request that lets it in, and one that leaves gives back more
than closing its session and telling the others takes.  So the effort at the
beginning is fuel enough, and `Relay.finish` does one step after the other until
nothing is left to do, which `finish_nil` and `finish_cons` say.
-/

namespace Muster.Relay

theorem effortOfAll_nil : effortOfAll [] = 0 := rfl

theorem effortOfAll_append (work others : List Work) :
    effortOfAll (work ++ others) = effortOfAll work + effortOfAll others := by
  simp [effortOfAll]

theorem effortOfAll_cons (work : Work) (others : List Work) :
    effortOfAll (work :: others) = effortOf work + effortOfAll others := by
  simp [effortOfAll]

theorem effortOfAll_map_push (changes : List ViewChange) :
    effortOfAll (changes.map Work.push) = 3 * changes.length := by
  induction changes with
  | nil => rfl
  | cons change changes ih =>
      simp only [List.map_cons, effortOfAll_cons, ih, List.length_cons, effortOf]
      omega

theorem effortOfAll_toList_push (change? : Option ViewChange) :
    effortOfAll (change?.map Work.push).toList ≤ 3 := by
  cases change? <;> simp [effortOfAll, effortOf]

theorem effortOfAll_afterDeparture_le (departure : Departure) :
    effortOfAll (afterDeparture departure) ≤ departure.departed.length + 4 := by
  have htold := effortOfAll_toList_push departure.change
  have hclosed := List.length_filterMap_le Member.session departure.departed
  simp only [afterDeparture, effortOfAll_cons, effortOf, Departure.sessions]
  omega

theorem effortOfAll_afterDelivery_le (cluster : String) (delivery : Delivery) :
    effortOfAll (afterDelivery cluster delivery) ≤ 2 := by
  unfold afterDelivery
  split <;> simp [effortOfAll, effortOf]

theorem effort_spread (relay : Relay) (cluster : String) (frame : Frame)
    (recipients : List Recipient) :
    (relay.spread cluster frame recipients).2.relay.effort
        (relay.spread cluster frame recipients).2.next ≤
      8 * relay.registry.population + 2 := by
  have hevicted := effortOfAll_afterDelivery_le cluster (deliver frame recipients relay.sessions)
  simp only [spread, effort]
  omega

/-- Every step lowers the effort. -/
theorem effort_step_lt (relay : Relay) (work : Work) :
    (relay.step work).relay.effort (relay.step work).next < relay.effort [work] := by
  cases work with
  | serve session request =>
      cases request with
      | join request =>
          have hgrown := relay.registry.population_join_le request.cluster request.address session
          have htold := effortOfAll_toList_push
            (relay.registry.join request.cluster request.address session).1
          simp only [step, serve, resumeWith, effort, effortOfAll_cons, effortOf]
          omega
      | leave request =>
          have hshrunk := relay.registry.population_leaveAll_le request.cluster [request.address]
          have htold := effortOfAll_afterDeparture_le
            (relay.registry.leave request.cluster request.address).1
          simp only [Registry.leave] at htold
          simp only [step, serve, resumeWith, effort, effortOfAll_cons, effortOf, Registry.leave]
          omega
      | registerView request =>
          have hgrown := relay.registry.population_registerView_le request.cluster
            request.view.members request.address session
          simp only [step, serve, resumeWith, effort, effortOfAll_cons, effortOf]
          omega
      | getView request =>
          have hkept := relay.registry.population_getView_le request.cluster
          simp only [step, serve, resumeWith, effort, effortOfAll_cons, effortOf]
          omega
      | message envelope =>
          simp only [step, serve, effort, effortOfAll_cons, effortOf]
          omega
      | dump =>
          simp only [step, serve, effort, effortOfAll_cons, effortOf]
          omega
  | reply session response =>
      simp only [step, effort, effortOfAll_cons, effortOf]
      simp [effortOfAll]
  | push change =>
      have hspent := relay.effort_spread change.cluster (Response.view change.view).encode
        change.recipients
      simp only [step]
      simp only [effort, effortOfAll_cons, effortOf] at hspent ⊢
      omega
  | relay envelope =>
      have hkept := relay.registry.population_route_le envelope
      simp only [step, passOn]
      split
      · simp only [effort, effortOfAll_cons, effortOf]
        simp only [effortOfAll, List.map_nil, total_nil]
        omega
      · simp only [effort, effortOfAll_cons, effortOf]
        simp only [effortOfAll, List.map_nil, total_nil]
        omega
      · rename_i recipient _
        have hspent := effort_spread { relay with registry := (relay.registry.route envelope).2 }
          envelope.cluster (Response.message envelope).encode [recipient]
        simp only [passOn.sent]
        simp only [effort, effortOfAll_cons, effortOf] at hspent ⊢
        omega
      · rename_i recipients _
        have hspent := effort_spread { relay with registry := (relay.registry.route envelope).2 }
          envelope.cluster (Response.message envelope).encode recipients
        simp only [passOn.sent]
        simp only [effort, effortOfAll_cons, effortOf] at hspent ⊢
        omega
  | evict cluster failed =>
      have hshrunk := relay.registry.population_leaveAll_le cluster failed
      have htold := effortOfAll_afterDeparture_le (relay.registry.leaveAll cluster failed).1
      simp only [step, resumeWith, effort, effortOfAll_cons, effortOf]
      by_cases hnobody : (relay.registry.leaveAll cluster failed).1.departed = []
      · rw [relay.registry.leaveAll_eq_nothing cluster failed hnobody] at hshrunk ⊢
        simp [afterDeparture, Departure.nothing, Departure.sessions, effortOfAll, effortOf]
          at hshrunk ⊢
        omega
      · have hsomebody := List.length_pos_iff.2 hnobody
        omega
  | close sessions =>
      cases sessions with
      | nil => simp [step, effort, effortOfAll, effortOf]
      | cons session others => simp [step, effort, effortOfAll, effortOf]
  | forget session =>
      have hshrunk := relay.registry.population_removeSession_le session
      have htold := effortOfAll_map_push (relay.registry.removeSession session).1
      simp only [step, resumeWith, effort, effortOfAll_cons, effortOf]
      omega

theorem effort_next_lt (relay : Relay) (work : Work) (others : List Work) :
    (relay.step work).relay.effort ((relay.step work).next ++ others) <
      relay.effort (work :: others) := by
  have hlower := relay.effort_step_lt work
  simp only [effort, effortOfAll_append, effortOfAll_cons] at hlower ⊢
  simp only [effortOfAll, List.map_nil, total_nil] at hlower ⊢
  omega

theorem workFor_eq_finish (fuel : Nat) (work : List Work) (relay : Relay)
    (henough : relay.effort work ≤ fuel) : workFor fuel work relay = relay.finish work := by
  have hkey : ∀ (fuel fuel' : Nat) (work : List Work) (relay : Relay),
      relay.effort work ≤ fuel → relay.effort work ≤ fuel' →
        workFor fuel work relay = workFor fuel' work relay := by
    intro fuel
    induction fuel with
    | zero =>
        intro fuel' work relay henough _
        cases work with
        | nil => cases fuel' <;> rfl
        | cons work others => exact absurd (relay.effort_next_lt work others) (by omega)
    | succ fuel ih =>
        intro fuel' work relay henough henough'
        cases work with
        | nil => cases fuel' <;> rfl
        | cons work others =>
            have hlower := relay.effort_next_lt work others
            cases fuel' with
            | zero => omega
            | succ fuel' =>
                simp only [workFor]
                rw [ih fuel' _ _ (by omega) (by omega)]
  exact hkey fuel _ work relay henough (Nat.le_refl _)

theorem finish_nil (relay : Relay) : relay.finish [] = (relay, .zero) := by
  unfold finish
  cases relay.effort [] <;> rfl

theorem finish_cons (relay : Relay) (work : Work) (others : List Work) :
    relay.finish (work :: others) =
      (((relay.step work).relay.finish ((relay.step work).next ++ others)).1,
        (relay.step work).pause.length +
          ((relay.step work).relay.finish ((relay.step work).next ++ others)).2) := by
  have hlower := relay.effort_next_lt work others
  rw [finish]
  cases hfuel : relay.effort (work :: others) with
  | zero => omega
  | succ fuel =>
      simp only [workFor]
      rw [workFor_eq_finish fuel _ _ (by omega)]

end Muster.Relay
