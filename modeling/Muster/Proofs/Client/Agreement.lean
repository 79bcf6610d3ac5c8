import Muster.Proofs.Client.Calls

/-!
# When status and stream agree

A call that sets the status after it has given the lock back may do so at a time
when somebody else has opened a stream.  The stream is hit: it is held, and yet the
status says that nothing is connected, and the next call to connect replaces it
without letting it go.  Nothing else makes the two disagree.  The invariant below
says so for every state of a run, and in a state without calls in progress it comes
down to the agreement of status and stream.
-/

namespace Muster

namespace Client

/-- What is known of a client whose hit streams and whose replaced streams are
given. -/
structure Sound (client : Client) (hits : Nat → Prop) (lost : List Nat) :
    Prop where
  current : ∀ generation, client.manager.stream = some generation →
    generation = client.manager.generation
  reader : ∀ generation ∈ client.opened, generation ≤ client.manager.generation ∧
    (generation = client.manager.generation →
      client.manager.stream = some generation)
  held : ∀ generation, client.manager.stream = some generation →
    client.manager.status = .disconnected ∧ hits generation ∨
      (client.manager.status = .connecting ∨ client.manager.status = .connected) ∧
        ¬hits generation
  free : client.manager.stream = none →
    client.manager.status = .disconnected ∨
      client.manager.status = .disconnecting ∧
        ∃ caller call, client.callers caller = .closing call
  past : ∀ generation, hits generation → generation ≤ client.manager.generation
  streams : client.streams = lost ++ client.manager.stream.toList
  lost : ∀ generation ∈ lost, hits generation ∧ generation < client.manager.generation

theorem sound_start (config : ClientConfig) : (start config).Sound (fun _ => False) [] where
  current := fun _ hheld => by contradiction
  reader := fun _ hopened => by contradiction
  held := fun _ hheld => by contradiction
  free := fun _ => .inl rfl
  past := fun _ hhit => hhit.elim
  streams := rfl
  lost := fun _ hlost => by contradiction

variable {client next : Client} {hits : Nat → Prop} {lost : List Nat}

theorem Sound.rest (hsound : client.Sound hits lost) : client.rest = lost := by
  unfold Client.rest
  rw [hsound.streams]
  have hlost : lost.filter (fun generation => client.manager.stream ≠ some generation) =
      lost := by
    apply List.filter_eq_self.mpr
    intro generation hmem
    simp only [ne_eq, decide_not, Bool.not_eq_true', decide_eq_false_iff_not]
    intro hheld
    have hlt := (hsound.lost generation hmem).2
    rw [← hsound.current generation hheld] at hlt
    exact Nat.lt_irrefl generation hlt
  rw [List.filter_append, hlost]
  cases hstream : client.manager.stream with
  | none => simp
  | some generation => simp

/-- Nothing changes but callers, and whoever has yet to set the status is not among
them. -/
theorem Sound.of_same (hsound : client.Sound hits lost)
    (hstatus : next.manager.status = client.manager.status)
    (hstream : next.manager.stream = client.manager.stream)
    (hgeneration : next.manager.generation = client.manager.generation)
    (hopened : next.opened = client.opened) (hstreams : next.streams = client.streams)
    (hclosing : ∀ caller call, client.callers caller = .closing call →
      next.callers caller = .closing call) : next.Sound hits lost where
  current := by
    rw [hstream, hgeneration]
    exact hsound.current
  reader := by
    rw [hopened, hgeneration, hstream]
    exact hsound.reader
  held := by
    rw [hstream, hstatus]
    exact hsound.held
  free := by
    rw [hstream, hstatus]
    intro hnone
    rcases hsound.free hnone with hdisconnected | ⟨hdisconnecting, caller, call, hcaller⟩
    · exact .inl hdisconnected
    · exact .inr ⟨hdisconnecting, caller, call, hclosing caller call hcaller⟩
  past := by
    rw [hgeneration]
    exact hsound.past
  streams := by
    rw [hstreams, hstream]
    exact hsound.streams
  lost := by
    rw [hgeneration]
    exact hsound.lost

theorem Sound.of_free (hsound : client.Sound hits lost) {gone : List Nat}
    (hlater : client.manager.generation < next.manager.generation)
    (hstream : next.manager.stream = none)
    (hopened : ∀ generation ∈ next.opened, generation < next.manager.generation)
    (hstatus : next.manager.status = .disconnected ∨
      next.manager.status = .disconnecting ∧
        ∃ caller call, next.callers caller = .closing call)
    (hstreams : next.streams = gone)
    (hgone : ∀ generation ∈ gone, hits generation ∧
      generation ≤ client.manager.generation) : next.Sound hits gone where
  current := by
    rw [hstream]
    exact fun _ hheld => by contradiction
  reader := by
    intro generation hmem
    have hlt := hopened generation hmem
    exact ⟨Nat.le_of_lt hlt, fun hsame => absurd hsame (Nat.ne_of_lt hlt)⟩
  held := by
    rw [hstream]
    exact fun _ hheld => by contradiction
  free := fun _ => hstatus
  past := fun generation hhit =>
    Nat.le_of_lt (Nat.lt_of_le_of_lt (hsound.past generation hhit) hlater)
  streams := by
    rw [hstreams, hstream]
    simp
  lost := fun generation hmem =>
    ⟨(hgone generation hmem).1, Nat.lt_of_le_of_lt (hgone generation hmem).2 hlater⟩

/-- A stream that is held while the status is set back, or while nothing is
connected, is hit. -/
theorem Sound.hits_of_disconnected (hsound : client.Sound hits lost)
    (hstatus : client.manager.status = .disconnected) {generation : Nat}
    (hheld : client.manager.stream = some generation) : hits generation := by
  rcases hsound.held generation hheld with ⟨_, hhit⟩ | ⟨hconnected, _⟩
  · exact hhit
  · rw [hstatus] at hconnected
    rcases hconnected with hconnecting | hconnected
    · contradiction
    · contradiction

theorem not_closing_of_idle {caller : Nat} (hidle : client.callers caller = .idle)
    (call : Call) : client.callers caller ≠ .closing call := by
  rw [hidle]
  exact Stage.noConfusion

theorem not_closing_of_waiting {caller : Nat} {waiting : Call}
    (hwaiting : client.callers caller = .waiting waiting) (call : Call) :
    client.callers caller ≠ .closing call := by
  rw [hwaiting]
  exact Stage.noConfusion

theorem closing_goTo {caller : Nat}
    (hstage : ∀ call, client.callers caller ≠ .closing call) (stage : Stage) (other : Nat)
    (call : Call)
    (hclosing : client.callers other = .closing call) :
    (client.goTo caller stage).callers other = .closing call := by
  have hother : other ≠ caller := by
    intro hsame
    rw [hsame] at hclosing
    exact hstage call hclosing
  exact (Function.update_of_ne hother _ _).trans hclosing

theorem Sound.opened_lt (hsound : client.Sound hits lost) {generation : Nat}
    (hmem : generation ∈ client.opened) :
    generation < client.manager.generation + 1 :=
  Nat.lt_succ_of_le (hsound.reader generation hmem).1

theorem Sound.refused (hsound : client.Sound hits lost)
    (hgeneration : next.manager.generation = client.manager.generation + 1)
    (hstream : next.manager.stream = none) (hstatus : next.manager.status = .disconnected)
    (hopened : next.opened = client.opened) (hstreams : next.streams = client.rest) :
    next.Sound hits lost := by
  apply hsound.of_free _ hstream _ (.inl hstatus) (hstreams.trans hsound.rest)
  · intro generation hmem
    exact ⟨(hsound.lost generation hmem).1, Nat.le_of_lt (hsound.lost generation hmem).2⟩
  · omega
  · intro generation hmem
    rw [hopened] at hmem
    rw [hgeneration]
    exact hsound.opened_lt hmem

theorem Sound.lost_replaced (hsound : client.Sound hits lost)
    (hstatus : client.manager.status = .disconnected) (generation : Nat)
    (hmem : generation ∈ lost ++ client.manager.stream.toList) :
    hits generation ∧ generation ≤ client.manager.generation := by
  rcases List.mem_append.mp hmem with hlost | hheld
  · exact ⟨(hsound.lost generation hlost).1, Nat.le_of_lt (hsound.lost generation hlost).2⟩
  · have hstream := Option.mem_toList.mp hheld
    exact ⟨hsound.hits_of_disconnected hstatus hstream,
      Nat.le_of_eq (hsound.current generation hstream)⟩

theorem Sound.accepted (hsound : client.Sound hits lost)
    (hstatus : client.manager.status = .disconnected)
    (hgeneration : next.manager.generation = client.manager.generation + 1)
    (hstream : next.manager.stream = some (client.manager.generation + 1))
    (hconnecting : next.manager.status = .connecting)
    (hopened : next.opened = client.opened ++ [client.manager.generation + 1])
    (hstreams : next.streams = client.streams ++ [client.manager.generation + 1]) :
    next.Sound hits (lost ++ client.manager.stream.toList) where
  current := by
    intro generation hheld
    rw [hstream] at hheld
    rw [hgeneration, Option.some.inj hheld]
  reader := by
    intro generation hmem
    rw [hopened] at hmem
    rw [hgeneration, hstream]
    rcases List.mem_append.mp hmem with hold | hnew
    · have hlt := hsound.opened_lt hold
      exact ⟨Nat.le_of_lt hlt, fun hsame => absurd hsame (Nat.ne_of_lt hlt)⟩
    · rw [List.mem_singleton.mp hnew]
      exact ⟨Nat.le_refl _, fun _ => rfl⟩
  held := by
    intro generation hheld
    rw [hstream] at hheld
    refine .inr ⟨.inl hconnecting, fun hhit => ?_⟩
    have hle := hsound.past generation hhit
    rw [← Option.some.inj hheld] at hle
    omega
  free := by
    rw [hstream]
    exact fun hnone => by contradiction
  past := by
    intro generation hhit
    rw [hgeneration]
    exact Nat.le_succ_of_le (hsound.past generation hhit)
  streams := by
    rw [hstreams, hstream, hsound.streams]
    rfl
  lost := by
    intro generation hmem
    obtain ⟨hhit, hle⟩ := hsound.lost_replaced hstatus generation hmem
    rw [hgeneration]
    exact ⟨hhit, Nat.lt_succ_of_le hle⟩

theorem Sound.dialed (hsound : client.Sound hits lost) (request : Request) (dial : Dial)
    (now : Nat) :
    (client.dialed request dial now).Sound hits
      (lost ++ (client.replaces dial).toList) := by
  unfold Client.dialed Client.replaces
  by_cases hstatus : client.manager.status = .disconnected
  · simp only [hstatus, if_true, Manager.openWith_of_disconnected hstatus]
    cases dial with
    | refused | unanswered =>
        rw [Option.toList_none, List.append_nil]
        exact hsound.refused rfl rfl rfl rfl rfl
    | broken =>
        refine hsound.of_free ?_ (by rfl) ?_ (.inl (by rfl)) hsound.streams
          (hsound.lost_replaced hstatus)
        · exact Nat.lt_add_of_pos_right (Nat.zero_lt_succ 1)
        · intro generation hmem
          change generation < client.manager.generation + 1 + 1
          rcases List.mem_append.mp hmem with hold | hnew
          · exact Nat.lt_succ_of_lt (hsound.opened_lt hold)
          · rw [List.mem_singleton.mp hnew]
            exact Nat.lt_succ_self _
    | accepted => exact hsound.accepted hstatus rfl rfl rfl rfl rfl
  · simp only [hstatus, if_false, Manager.openWith_of_ne hstatus, Option.toList_none,
      List.append_nil]
    exact hsound

theorem Sound.detached_of_none (hsound : client.Sound hits lost)
    (hnone : client.manager.stream = none) {caller : Nat}
    (hstage : ∀ call, client.callers caller ≠ .closing call) (stage : Stage)
    (stopsReconnecting : Bool) :
    ((client.detached stopsReconnecting).goTo caller stage).Sound hits lost := by
  obtain ⟨hstatus, hstream, hgeneration⟩ :=
    Manager.detach_of_none hnone stopsReconnecting
  refine hsound.of_same hstatus (hstream.trans hnone.symm) hgeneration rfl ?_
    (closing_goTo hstage stage)
  change client.rest = client.streams
  rw [hsound.rest, hsound.streams, hnone]
  simp

theorem Sound.detached_of_some (hsound : client.Sound hits lost) {generation : Nat}
    (hheld : client.manager.stream = some generation) (caller : Nat) (call : Call)
    (stopsReconnecting : Bool) :
    ((client.detached stopsReconnecting).goTo caller (.closing call)).Sound hits lost := by
  obtain ⟨hstatus, hstream, hgeneration⟩ :=
    Manager.detach_of_some hheld stopsReconnecting
  refine hsound.of_free ?_ hstream ?_ (.inr ⟨hstatus, caller, call, ?_⟩) hsound.rest ?_
  · change client.manager.generation < (client.manager.detach _).2.generation
    rw [hgeneration]
    exact Nat.lt_succ_self _
  · intro other hmem
    change other < (client.manager.detach _).2.generation
    rw [hgeneration]
    exact hsound.opened_lt hmem
  · exact Function.update_self _ _ _
  · intro other hmem
    exact ⟨(hsound.lost other hmem).1, Nat.le_of_lt (hsound.lost other hmem).2⟩

theorem Sound.detached (hsound : client.Sound hits lost) {caller : Nat}
    (hstage : ∀ call, client.callers caller ≠ .closing call) (call : Call)
    (stopsReconnecting : Bool) :
    ((client.detached stopsReconnecting).goTo caller (.closing call)).Sound hits lost := by
  cases hstream : client.manager.stream with
  | none => exact hsound.detached_of_none hstream hstage _ stopsReconnecting
  | some generation => exact hsound.detached_of_some hstream caller call stopsReconnecting

theorem Sound.ended (hsound : client.Sound hits lost) (generation now : Nat) :
    (client.ended generation now).Sound hits lost := by
  unfold Client.ended
  by_cases hcurrent : client.manager.generation = generation
  · subst hcurrent
    simp only [Manager.streamEnded_self, Manager.isCurrent, decide_true, if_true]
    exact hsound.refused rfl rfl rfl rfl rfl
  · simp only [Manager.streamEnded_of_ne hcurrent, Manager.isCurrent, hcurrent, decide_false,
      Bool.false_eq_true, if_false]
    exact hsound

/-- A frame of the current stream moves the status on, unless it was set back. -/
theorem Sound.received (hsound : client.Sound hits lost) {generation : Nat}
    (hopened : generation ∈ client.opened) (frame : Frame) :
    Client.Sound
      { client with manager := (client.manager.receive generation frame).2 }
      hits lost := by
  rcases client.manager.receive_cases generation frame with
    hsame | ⟨hcurrent, hstatus, hstream, hgeneration⟩
  · rw [hsame]
    exact hsound
  · have hheld := (hsound.reader generation hopened).2 hcurrent.symm
    refine ⟨?_, ?_, ?_, ?_, ?_, ?_, ?_⟩
    · simp only [hstream, hgeneration]
      exact hsound.current
    · simp only [hstream, hgeneration]
      exact hsound.reader
    · simp only [hstream, hstatus]
      intro other hother
      rcases hsound.held other hother with ⟨hdisconnected, hhit⟩ | ⟨hmoving, hunhit⟩
      · rw [hdisconnected]
        exact .inl ⟨rfl, hhit⟩
      · rcases hmoving with hconnecting | hconnected
        · rw [hconnecting]
          exact .inr ⟨.inr rfl, hunhit⟩
        · rw [hconnected]
          exact .inr ⟨.inr rfl, hunhit⟩
    · simp only [hstream, hheld]
      exact fun hnone => by contradiction
    · simp only [hgeneration]
      exact hsound.past
    · simp only [hstream]
      exact hsound.streams
    · simp only [hgeneration]
      exact hsound.lost

theorem Sound.set (hsound : client.Sound hits lost) (caller : Nat) :
    ({ client with manager := client.manager.markDisconnected }.goTo caller
      .idle).Sound
      (fun generation => hits generation ∨ client.manager.stream = some generation)
      lost where
  current := hsound.current
  reader := hsound.reader
  held := fun _ hheld => .inl ⟨rfl, .inr hheld⟩
  free := fun _ => .inl rfl
  past := by
    intro generation hhit
    rcases hhit with hhit | hheld
    · exact hsound.past generation hhit
    · exact Nat.le_of_eq (hsound.current generation hheld)
  streams := hsound.streams
  lost := fun generation hmem =>
    ⟨.inl (hsound.lost generation hmem).1, (hsound.lost generation hmem).2⟩

theorem Sound.goTo (hsound : client.Sound hits lost) {caller : Nat}
    (hstage : ∀ call, client.callers caller ≠ .closing call) (stage : Stage) :
    (client.goTo caller stage).Sound hits lost :=
  hsound.of_same rfl rfl rfl rfl rfl (closing_goTo hstage stage)

theorem Sound.unhit (hsound : next.Sound hits lost) :
    next.Sound (fun generation => hits generation ∨ none = some generation) (lost ++ []) := by
  simpa using hsound

theorem sound_step {caller : Nat} {move : Move} (hsound : client.Sound hits lost)
    (hstep : Step caller client move next) :
    next.Sound
      (fun generation => hits generation ∨
        (⟨client, caller, move⟩ : Moment).hit? = some generation)
      (lost ++ ((⟨client, caller, move⟩ : Moment).replaced?).toList) := by
  cases hstep with
  | call hidle | attempt hidle _ =>
      apply Sound.unhit
      exact hsound.goTo (not_closing_of_idle hidle) _
  | abort hwaiting =>
      apply Sound.unhit
      exact hsound.goTo (not_closing_of_waiting hwaiting) _
  | @dial call request dial now hwaiting _ =>
      have hdialed := hsound.dialed request dial now
      rw [← client.callers_dialed request dial now] at hwaiting
      have hgone := hdialed.goTo (not_closing_of_waiting hwaiting) .idle
      simpa [Moment.hit?, Moment.replaced?] using hgone
  | @leave cluster address hwaiting _ =>
      apply Sound.unhit
      exact hsound.detached (not_closing_of_waiting hwaiting) (.disconnect cluster address) false
  | ignore hwaiting hnone =>
      apply Sound.unhit
      exact hsound.detached_of_none hnone (not_closing_of_waiting hwaiting) .idle false
  | stop hwaiting =>
      apply Sound.unhit
      exact hsound.detached (not_closing_of_waiting hwaiting) .stop true
  | set hclosing => simpa [Moment.hit?, Moment.replaced?] using hsound.set caller
  | frame frame hopened => exact (hsound.received hopened frame).unhit
  | @ended generation now hopened => exact (hsound.ended generation now).unhit
  | rejoin cluster address =>
      apply Sound.unhit
      exact hsound.of_same rfl rfl rfl rfl rfl fun _ _ hclosing => hclosing

theorem sound_run {config : ClientConfig} {moments : List Moment}
    (hrun : Run config moments client) :
    client.Sound (Hit moments) (replaced moments) := by
  induction hrun with
  | start =>
      have hnone : Hit [] = fun _ => False := by
        funext generation
        simp [Hit]
      rw [hnone]
      exact sound_start config
  | @step moments client next caller move _ hstep ih =>
      have hnext := sound_step ih hstep
      have hhit : Hit (moments ++ [⟨client, caller, move⟩]) = fun generation =>
          Hit moments generation ∨
            (⟨client, caller, move⟩ : Moment).hit? = some generation := by
        funext generation
        simp [Hit, or_and_right, exists_or]
      have hreplaced : replaced (moments ++ [⟨client, caller, move⟩]) =
          replaced moments ++ ((⟨client, caller, move⟩ : Moment).replaced?).toList := by
        unfold replaced
        rw [List.filterMap_append]
        congr 1
      rw [hhit, hreplaced]
      exact hnext

/-! ## Without calls in progress -/

end Client

end Muster
