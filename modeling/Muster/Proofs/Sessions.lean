import Muster.Session.Table

/-!
# What writing and closing do to sessions

A write and a closing touch the one session they are meant for.  A write never
closes a session and never changes what the other end is going to do, and a
closing never opens one.  So a session that is open and whose other end takes
everything is reached by every write until somebody closes it.
-/

namespace Muster

namespace Session

@[simp] theorem id_send (session : Session) (frame : Frame) :
    (session.send frame).1.id = session.id := by
  unfold send
  split
  · rfl
  · split <;> rfl

@[simp] theorem fates_send (session : Session) (frame : Frame) :
    (session.send frame).1.fates = session.fates := by
  unfold send
  split
  · rfl
  · split <;> rfl

@[simp] theorem isClosed_send (session : Session) (frame : Frame) :
    (session.send frame).1.isClosed = session.isClosed := by
  unfold send
  split
  · rfl
  · split <;> rfl

@[simp] theorem id_close (session : Session) : session.close.id = session.id := by
  unfold close
  split <;> rfl

@[simp] theorem received_close (session : Session) :
    session.close.received = session.received := by
  unfold close
  split <;> rfl

theorem isClosed_close {session : Session} (hclosed : session.isClosed = true) :
    session.close.isClosed = true := by
  unfold close
  split
  · rfl
  · exact hclosed

theorem isClosed_close_of_taken {session : Session} (htaken : session.next = .taken) :
    session.close.isClosed = true := by
  rw [close, if_pos htaken]

theorem received_prefix_send (session : Session) (frame : Frame) :
    session.received <+: (session.send frame).1.received := by
  unfold send
  split
  · exact List.prefix_rfl
  · split
    · exact List.prefix_append _ _
    · exact List.prefix_rfl
    · exact List.prefix_rfl

theorem mem_received_send {session : Session} {frame : Frame}
    (htaken : (session.send frame).2 = .ok ()) :
    .message frame ∈ (session.send frame).1.received := by
  unfold send at htaken ⊢
  split at htaken
  · contradiction
  next hopen =>
    rw [if_neg hopen]
    split at htaken
    · simp
    · contradiction
    · contradiction

/-- A write to an open session is tried once, and one to a closed session not at all. -/
theorem writes_send (session : Session) (frame : Frame) :
    (session.send frame).1.writes =
      if session.isClosed then session.writes else session.writes + 1 := by
  unfold send
  split
  · rfl
  · split <;> rfl

theorem send_eq_ok_iff {session : Session} {frame : Frame} :
    (session.send frame).2 = .ok () ↔ session.isClosed = false ∧ session.next = .taken := by
  unfold send
  cases session.isClosed with
  | true => simp
  | false => cases session.next <;> simp

/-- The other end receives the frame that it takes, and nothing else. -/
theorem received_send (session : Session) (frame : Frame) :
    (session.send frame).1.received =
      session.received ++
        if session.isClosed = false ∧ session.next = .taken then [.message frame] else [] := by
  unfold send
  cases session.isClosed with
  | true => simp
  | false => cases session.next <;> simp

/-- Whether a session is open and its other end takes everything. -/
structure Sound (session : Session) : Prop where
  isOpen : session.isClosed = false
  taken : ∀ write, session.fates write = .taken

theorem Sound.send {session : Session} (hsound : session.Sound) (frame : Frame) :
    (session.send frame).1.Sound where
  isOpen := by rw [isClosed_send, hsound.isOpen]
  taken := by
    rw [fates_send]
    exact hsound.taken

theorem Sound.send_ok {session : Session} (hsound : session.Sound) (frame : Frame) :
    (session.send frame).2 = .ok () := by
  have hnext : session.next = .taken := hsound.taken session.writes
  simp [Session.send, hsound.isOpen, hnext]

end Session

namespace Sessions

@[simp] theorem id_get (sessions : Sessions) (id : SessionId) : (sessions.get id).id = id := by
  unfold get
  cases hfind : sessions.entries.find? (·.id = id) with
  | none => rfl
  | some session => simpa using List.find?_some hfind

theorem find?_replace (session : Session) (entries : List Session) (id : SessionId) :
    (replace session entries).find? (·.id = id) =
      if id = session.id then some session else entries.find? (·.id = id) := by
  induction entries with
  | nil =>
      by_cases hid : id = session.id
      · simp [replace, hid]
      · simp [replace, hid, Ne.symm hid]
  | cons other entries ih =>
      by_cases hother : other.id = session.id
      · rw [replace, if_pos hother]
        by_cases hid : id = session.id
        · simp [hid]
        · simp [hid, hother, Ne.symm hid]
      · rw [replace, if_neg hother]
        by_cases hfound : other.id = id
        · have hid : id ≠ session.id := fun heq => hother (hfound.trans heq)
          simp [hfound, hid]
        · rw [List.find?_cons_of_neg (by simpa using hfound), ih,
            List.find?_cons_of_neg (by simpa using hfound)]

theorem get_put (sessions : Sessions) (session : Session) (id : SessionId) :
    (sessions.put session).get id = if id = session.id then session else sessions.get id := by
  unfold get put
  rw [find?_replace]
  split <;> rfl

/-- A write through a session is seen there and nowhere else. -/
theorem get_put_send (sessions : Sessions) (written id : SessionId) (frame : Frame) :
    (sessions.put ((sessions.get written).send frame).1).get id =
      if id = written then ((sessions.get id).send frame).1 else sessions.get id := by
  rw [get_put, Session.id_send, id_get]
  split
  next heq => rw [heq]
  · rfl

theorem get_close (sessions : Sessions) (closing id : SessionId) :
    (sessions.close closing).get id =
      if id = closing then (sessions.get id).close else sessions.get id := by
  rw [close, get_put, Session.id_close, id_get]
  split
  next heq => rw [heq]
  · rfl

end Sessions

end Muster
