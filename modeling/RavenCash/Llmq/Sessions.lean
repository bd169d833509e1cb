import RavenCash.Basic.Primitives
import RavenCash.Lib.Simulation
import RavenCash.Lib.StdMap

/-!
# Sessions of a peer

What a node knows about the signing sessions of one peer, `CSigSharesNodeState` of `llmq/quorums_signing_shares.cpp`.
The sessions are in a map by their sign hashes; the peer chooses ids for them in its announcements, and a second map has
pointers to the sessions by these ids.

A session in the first map has an address, which no later session gets, so that a pointer to a session that was erased
leads nowhere. What the ids are for is `Owners`: the session that was announced last under an id, until it is announced
under another or removed.
-/

set_option autoImplicit false

namespace RavenCash.Evo.Llmq.Sessions

/-! ## The code -/

/-- What a session is about. -/
structure SigningSession where
  llmqType : Nat
  quorumHash : UInt256
  id : UInt256
  msgHash : UInt256

structure CSigSesAnn extends SigningSession where
  sessionId : UInt32

/-- `(uint32_t)-1` -/
def noSessionId : UInt32 := 0xffffffff

/-- The members of a `Session` that are read here; `announced` is the size of `announced.inv`. -/
structure Session where
  recvSessionId : UInt32 := noSessionId
  about : Option SigningSession := none
  announced : Nat := 0

structure CSigSharesNodeState where
  sessions : StdMap UInt256 (Nat × Session) := ∅
  sessionByRecvId : StdMap UInt32 Nat := ∅
  nextAddress : Nat := 0

/-- What the rest of the program provides: the sizes of the quorum types, the quorums and `BuildSignHash`. -/
structure Context where
  llmqs : Nat → Option Nat
  getQuorum : Nat → UInt256 → Bool
  buildSignHash : SigningSession → UInt256

variable (ctx : Context)

/-- `InitSession`; a quorum type that is not there makes it throw, and nothing is set. -/
def initSession (about : SigningSession) (s : Session) : Session :=
  match ctx.llmqs about.llmqType with
  | none => s
  | some size => { s with about := some about, announced := size }

/-- `GetOrCreateSessionFromShare` and `GetOrCreateSessionFromAnn`, which differ in where the session comes from. -/
def getOrCreateSession (state : CSigSharesNodeState) (about : SigningSession) : Nat × Session × CSigSharesNodeState :=
  let signHash := ctx.buildSignHash about
  let (address, s) := (state.sessions.lookup signHash).getD (state.nextAddress, {})
  let s := if s.announced = 0 then initSession ctx about s else s
  (address, s,
    { state with
      sessions := state.sessions.insert signHash (address, s)
      nextAddress := max state.nextAddress (address + 1) })

/-- The checks of `ProcessMessageSigSesAnn` and that there is the quorum. -/
def accepts (ann : CSigSesAnn) : Bool :=
  (ctx.llmqs ann.llmqType).isSome &&
    !(ann.sessionId == noSessionId || ann.quorumHash == 0 || ann.id == 0 || ann.msgHash == 0) &&
    ctx.getQuorum ann.llmqType ann.quorumHash

/-- `ProcessMessageSigSesAnn`, as far as it changes the state. -/
def processMessageSigSesAnn (state : CSigSharesNodeState) (ann : CSigSesAnn) : CSigSharesNodeState :=
  if accepts ctx ann then
    let (address, session, state) := getOrCreateSession ctx state ann.toSigningSession
    let sessionByRecvId := (state.sessionByRecvId.erase session.recvSessionId).erase ann.sessionId
    { state with
      sessions := state.sessions.insert (ctx.buildSignHash ann.toSigningSession)
        (address, { session with recvSessionId := ann.sessionId })
      sessionByRecvId := StdMap.insertNew sessionByRecvId ann.sessionId address }
  else state

def removeSession (state : CSigSharesNodeState) (signHash : UInt256) : CSigSharesNodeState :=
  match state.sessions.lookup signHash with
  | none => state
  | some (_, s) =>
      { state with
        sessions := state.sessions.erase signHash
        sessionByRecvId := state.sessionByRecvId.erase s.recvSessionId }

inductive Op where
  | announce (ann : CSigSesAnn)
  | share (about : SigningSession)
  | remove (signHash : UInt256)

def step (state : CSigSharesNodeState) : Op → CSigSharesNodeState
  | .announce ann => processMessageSigSesAnn ctx state ann
  | .share about => (getOrCreateSession ctx state about).2.2
  | .remove signHash => removeSession state signHash

/-! ## What the ids are for -/

/-- The session that an id stands for. -/
abbrev Owners := UInt32 → Option UInt256

/-- A session gives up its ids. -/
def Owners.release (owners : Owners) (signHash : UInt256) : Owners := fun id =>
  if owners id = some signHash then none else owners id

def Owners.step (owners : Owners) : Op → Owners
  | .announce ann =>
      if accepts ctx ann then
        let signHash := ctx.buildSignHash ann.toSigningSession
        Function.update (owners.release signHash) ann.sessionId (some signHash)
      else owners
  | .share _ => owners
  | .remove signHash => owners.release signHash

/-- The session is found under the id. -/
def Under (state : CSigSharesNodeState) (id : UInt32) (signHash : UInt256) : Prop :=
  ∃ address s, state.sessionByRecvId.lookup id = some address ∧ state.sessions.lookup signHash = some (address, s)

/-- Every entry points to a session that is stored and has the id. -/
def PointersValid (state : CSigSharesNodeState) : Prop :=
  ∀ id address, state.sessionByRecvId.lookup id = some address →
    ∃ signHash s, state.sessions.lookup signHash = some (address, s) ∧ s.recvSessionId = id

/-- The session has no id that now is another session's, except for one it is announced under. -/
def IdNotTaken (state : CSigSharesNodeState) (signHash : UInt256) (except : Option UInt32) : Prop :=
  ∀ address s other, state.sessions.lookup signHash = some (address, s) →
    state.sessionByRecvId.lookup s.recvSessionId = some other → some s.recvSessionId = except ∨ other = address

/-- Neither an announcement nor a removal is of a session whose id was taken. -/
def Condition (state : CSigSharesNodeState) : Op → Prop
  | .announce ann => accepts ctx ann = true → IdNotTaken state (ctx.buildSignHash ann.toSigningSession)
    (some ann.sessionId)
  | .share _ => True
  | .remove signHash => IdNotTaken state signHash none

/-! ## The invariant -/

/-- The addresses are distinct and used up, and the pointers valid. -/
structure Ok (state : CSigSharesNodeState) : Prop where
  lt : ∀ {signHash address s}, state.sessions.lookup signHash = some (address, s) → address < state.nextAddress
  distinct : ∀ {signHash signHash' address s s'}, state.sessions.lookup signHash = some (address, s) →
    state.sessions.lookup signHash' = some (address, s') → signHash = signHash'
  pointers : PointersValid state
  unset : state.sessionByRecvId.lookup noSessionId = none

namespace Ok

variable {state : CSigSharesNodeState} (hs : Ok state)

include hs

/-- A session is found only under the id it has. -/
theorem recvSessionId_of_under {id : UInt32} {signHash : UInt256} {address : Nat} {s : Session}
    (hunder : Under state id signHash) (hsession : state.sessions.lookup signHash = some (address, s)) :
    s.recvSessionId = id := by
  obtain ⟨address', s', hid, hsession'⟩ := hunder
  obtain ⟨other, s'', hother, hrecv⟩ := hs.pointers id address' hid
  obtain rfl := hs.distinct hother hsession'
  rw [hsession, Option.some.injEq, Prod.mk.injEq] at hother
  rw [hother.2, hrecv]

end Ok

variable {ctx} {state : CSigSharesNodeState}

@[simp] theorem initSession_recvSessionId (about : SigningSession) (s : Session) :
    (initSession ctx about s).recvSessionId = s.recvSessionId := by
  unfold initSession
  split <;> rfl

/-- Where a session is stored: at its address, if it is there, with its id; a new one at a new address, without. -/
def Slot (state : CSigSharesNodeState) (signHash : UInt256) (address : Nat) (recvSessionId : UInt32) : Prop :=
  (∃ s, state.sessions.lookup signHash = some (address, s) ∧ s.recvSessionId = recvSessionId) ∨
    state.sessions.lookup signHash = none ∧ address = state.nextAddress ∧ recvSessionId = noSessionId

theorem getOrCreateSession_cases (about : SigningSession) :
    ∃ address s, getOrCreateSession ctx state about =
        (address, s, { state with
          sessions := state.sessions.insert (ctx.buildSignHash about) (address, s)
          nextAddress := max state.nextAddress (address + 1) }) ∧
      Slot state (ctx.buildSignHash about) address s.recvSessionId := by
  unfold getOrCreateSession
  dsimp only
  cases hfound : state.sessions.lookup (ctx.buildSignHash about) with
  | none =>
      refine ⟨_, _, rfl, .inr ⟨hfound, rfl, ?_⟩⟩
      dsimp only [Option.getD_none]
      split_ifs <;> simp
  | some found =>
      obtain ⟨address, s⟩ := found
      refine ⟨_, _, rfl, .inl ⟨s, hfound, ?_⟩⟩
      dsimp only [Option.getD_some]
      split_ifs <;> simp

section store

variable {signHash : UInt256} {address : Nat} {recvSessionId : UInt32}

/-- No other session has the address. -/
theorem Slot.eq_of_lookup (hslot : Slot state signHash address recvSessionId) (hs : Ok state) {other : UInt256}
    {s : Session} (h : state.sessions.lookup other = some (address, s)) :
    other = signHash ∧ s.recvSessionId = recvSessionId := by
  rcases hslot with ⟨s', hs', hrecv⟩ | ⟨-, rfl, -⟩
  · obtain rfl := hs.distinct h hs'
    rw [h, Option.some.injEq, Prod.mk.injEq] at hs'
    exact ⟨rfl, hs'.2 ▸ hrecv⟩
  · exact absurd (hs.lt h) (lt_irrefl _)

/-- The only pointer to it is under its id. -/
theorem Slot.eq_of_pointer (hslot : Slot state signHash address recvSessionId) (hs : Ok state) {id : UInt32}
    (h : state.sessionByRecvId.lookup id = some address) : id = recvSessionId := by
  obtain ⟨other, s, hother, hrecv⟩ := hs.pointers id address h
  exact hrecv.symm.trans (hslot.eq_of_lookup hs hother).2

/-- Under another id another session is found. -/
theorem Slot.ne_of_under (hslot : Slot state signHash address recvSessionId) (hs : Ok state) {id : UInt32}
    {other : UInt256} (hunder : Under state id other) (hid : id ≠ recvSessionId) : other ≠ signHash := by
  rintro rfl
  obtain ⟨a, t, ha, ht⟩ := hunder
  rcases hslot with ⟨s, hsession, rfl⟩ | ⟨hnone, -, -⟩
  · exact hid (hs.recvSessionId_of_under ⟨a, t, ha, ht⟩ hsession).symm
  · exact nomatch hnone.symm.trans ht

variable (hs : Ok state) (hslot : Slot state signHash address recvSessionId) (s : Session)
  {sessionByRecvId : StdMap UInt32 Nat}

include hs hslot

/-- A session is stored in its slot, with any id that is the only one under which there is a pointer to it. -/
theorem Ok.store
    (hpointers : ∀ id a, sessionByRecvId.lookup id = some a →
      a = address ∧ s.recvSessionId = id ∨ a ≠ address ∧ state.sessionByRecvId.lookup id = some a)
    (hunset : sessionByRecvId.lookup noSessionId = none) :
    Ok { sessions := state.sessions.insert signHash (address, s)
         sessionByRecvId := sessionByRecvId
         nextAddress := max state.nextAddress (address + 1) } := by
  have hlookup : ∀ {h a t}, (state.sessions.insert signHash (address, s)).lookup h = some (a, t) →
      h = signHash ∧ a = address ∨ h ≠ signHash ∧ state.sessions.lookup h = some (a, t) := by
    intro h a t ht
    rw [StdMap.lookup_assign] at ht
    split_ifs at ht with heq
    · exact .inl ⟨heq, (Prod.mk.inj (Option.some.inj ht)).1.symm⟩
    · exact .inr ⟨heq, ht⟩
  refine ⟨fun h => ?_, fun h h' => ?_, fun id a hid => ?_, hunset⟩
  · rcases hlookup h with ⟨-, rfl⟩ | ⟨-, hold⟩
    · exact lt_max_of_lt_right (Nat.lt_succ_self _)
    · exact lt_max_of_lt_left (hs.lt hold)
  · rcases hlookup h with ⟨rfl, rfl⟩ | ⟨hne, hold⟩
    · rcases hlookup h' with ⟨rfl, -⟩ | ⟨hne', hold'⟩
      · rfl
      · exact absurd (hslot.eq_of_lookup hs hold').1 hne'
    · rcases hlookup h' with ⟨rfl, rfl⟩ | ⟨hne', hold'⟩
      · exact absurd (hslot.eq_of_lookup hs hold).1 hne
      · exact hs.distinct hold hold'
  · rcases hpointers id a hid with ⟨rfl, hrecv⟩ | ⟨hne, hold⟩
    · exact ⟨signHash, s, by rw [StdMap.lookup_assign, if_pos rfl], hrecv⟩
    · obtain ⟨h, t, ht, hrecv⟩ := hs.pointers id a hold
      have hh : h ≠ signHash := by
        rintro rfl
        rcases hslot with ⟨s', hs', -⟩ | ⟨hnone, -, -⟩
        · rw [ht, Option.some.injEq, Prod.mk.injEq] at hs'
          exact hne hs'.1
        · exact nomatch hnone.symm.trans ht
      exact ⟨h, t, by rw [StdMap.lookup_assign, if_neg hh, ht], hrecv⟩

/-- What is then found: the session through its address, and every other as before. -/
theorem under_store {id : UInt32} {other : UInt256} {nextAddress : Nat} :
    Under { sessions := state.sessions.insert signHash (address, s)
            sessionByRecvId := sessionByRecvId
            nextAddress := nextAddress } id other ↔
      if sessionByRecvId.lookup id = some address then other = signHash
      else ∃ a t, sessionByRecvId.lookup id = some a ∧ state.sessions.lookup other = some (a, t) ∧
        other ≠ signHash := by
  unfold Under
  dsimp only
  simp only [StdMap.lookup_assign]
  split_ifs with hother haddress haddress
  · exact ⟨fun _ => hother, fun _ => ⟨address, s, haddress, rfl⟩⟩
  · refine ⟨?_, fun ⟨_, _, _, _, h⟩ => absurd hother h⟩
    rintro ⟨a, t, ha, ht⟩
    obtain ⟨rfl, -⟩ := Prod.mk.inj (Option.some.inj ht)
    exact absurd ha haddress
  · refine ⟨?_, fun h => absurd h hother⟩
    rintro ⟨a, t, ha, ht⟩
    obtain rfl : address = a := Option.some.inj (haddress.symm.trans ha)
    exact (hslot.eq_of_lookup hs ht).1
  · exact ⟨fun ⟨a, t, ha, ht⟩ => ⟨a, t, ha, ht, hother⟩, fun ⟨a, t, ha, ht, _⟩ => ⟨a, t, ha, ht⟩⟩

end store

/-! ## The operations -/

theorem share_spec (hs : Ok state) (about : SigningSession) :
    Ok (getOrCreateSession ctx state about).2.2 ∧
      ∀ id signHash, Under (getOrCreateSession ctx state about).2.2 id signHash ↔ Under state id signHash := by
  obtain ⟨address, s, heq, hslot⟩ := @getOrCreateSession_cases ctx state about
  rw [heq]
  refine ⟨hs.store hslot s (fun id a hid => ?_) hs.unset, fun id signHash => ?_⟩
  · rcases eq_or_ne a address with rfl | hne
    · exact .inl ⟨rfl, (hslot.eq_of_pointer hs hid).symm⟩
    · exact .inr ⟨hne, hid⟩
  · rw [under_store hs hslot s]
    split_ifs with hid
    · -- the pointer to the address was there, so the session was
      obtain ⟨other, t, hother, -⟩ := hs.pointers id address hid
      obtain rfl := (hslot.eq_of_lookup hs hother).1
      refine ⟨?_, ?_⟩
      · rintro rfl
        exact ⟨address, t, hid, hother⟩
      · rintro ⟨a, t', ha, ht'⟩
        obtain rfl : address = a := Option.some.inj (hid.symm.trans ha)
        exact hs.distinct ht' hother
    · refine ⟨fun ⟨a, t, ha, ht, _⟩ => ⟨a, t, ha, ht⟩, ?_⟩
      rintro ⟨a, t, ha, ht⟩
      refine ⟨a, t, ha, ht, ?_⟩
      rintro rfl
      rcases hslot with ⟨s', hs', -⟩ | ⟨hnone, -, -⟩
      · rw [ht, Option.some.injEq, Prod.mk.injEq] at hs'
        exact hid (hs'.1 ▸ ha)
      · exact nomatch hnone.symm.trans ht

/-- An accepted announcement: its id is the session's, and the id the session had is nobody's. -/
theorem announce_spec (hs : Ok state) {ann : CSigSesAnn} (haccepts : accepts ctx ann = true) :
    ∃ address recvSessionId, Slot state (ctx.buildSignHash ann.toSigningSession) address recvSessionId ∧
      Ok (processMessageSigSesAnn ctx state ann) ∧
      ∀ id signHash, Under (processMessageSigSesAnn ctx state ann) id signHash ↔
        if id = ann.sessionId then signHash = ctx.buildSignHash ann.toSigningSession
        else id ≠ recvSessionId ∧ Under state id signHash := by
  obtain ⟨address, s, heq, hslot⟩ := @getOrCreateSession_cases ctx state ann.toSigningSession
  have hset : ann.sessionId ≠ noSessionId := by
    intro h
    simp [accepts, h] at haccepts
  have hlookup : ∀ id, (StdMap.insertNew ((state.sessionByRecvId.erase s.recvSessionId).erase ann.sessionId)
      ann.sessionId address).lookup id =
        if id = ann.sessionId then some address
        else if id = s.recvSessionId then none else state.sessionByRecvId.lookup id := by
    intro id
    simp only [StdMap.lookup_insertNew, StdMap.lookup_erase_eq]
    split_ifs <;> rfl
  unfold processMessageSigSesAnn
  rw [if_pos haccepts, heq]
  dsimp only
  rw [AList.insert_insert]
  refine ⟨address, s.recvSessionId, hslot, hs.store hslot _ (fun id a hid => ?_) ?_, fun id signHash => ?_⟩
  · rw [hlookup] at hid
    split_ifs at hid with hann hold
    · exact .inl ⟨(Option.some.inj hid).symm, hann.symm⟩
    · refine .inr ⟨?_, hid⟩
      rintro rfl
      exact hold (hslot.eq_of_pointer hs hid)
  · rw [hlookup, if_neg hset.symm, hs.unset, ite_self]
  · rw [under_store hs hslot, hlookup]
    rcases eq_or_ne id ann.sessionId with hann | hann
    · rw [if_pos hann, if_pos rfl, if_pos hann]
    · rw [if_neg hann, if_neg hann]
      rcases eq_or_ne id s.recvSessionId with hold | hold
      · rw [if_pos hold, if_neg (by simp)]
        exact ⟨fun ⟨_, _, h, _⟩ => (nomatch h), fun h => absurd hold h.1⟩
      · rw [if_neg hold, if_neg fun h => hold (hslot.eq_of_pointer hs h)]
        exact ⟨fun ⟨a, t, ha, ht, _⟩ => ⟨hold, a, t, ha, ht⟩,
          fun ⟨_, a, t, ha, ht⟩ => ⟨a, t, ha, ht, hslot.ne_of_under hs ⟨a, t, ha, ht⟩ hold⟩⟩

theorem remove_spec (hs : Ok state) {signHash : UInt256} {address : Nat} {s : Session}
    (hfound : state.sessions.lookup signHash = some (address, s)) :
    Ok (removeSession state signHash) ∧
      ∀ id other, Under (removeSession state signHash) id other ↔ id ≠ s.recvSessionId ∧ Under state id other := by
  have hslot : Slot state signHash address s.recvSessionId := .inl ⟨s, hfound, rfl⟩
  unfold removeSession
  rw [hfound]
  dsimp only
  have hsession : ∀ {other a t}, (state.sessions.erase signHash).lookup other = some (a, t) ↔
      other ≠ signHash ∧ state.sessions.lookup other = some (a, t) := by
    intro other a t
    rw [StdMap.lookup_erase_eq]
    split_ifs with h <;> simp [h]
  have hpointer : ∀ {id a}, (state.sessionByRecvId.erase s.recvSessionId).lookup id = some a ↔
      id ≠ s.recvSessionId ∧ state.sessionByRecvId.lookup id = some a := by
    intro id a
    rw [StdMap.lookup_erase_eq]
    split_ifs with h <;> simp [h]
  refine ⟨⟨fun h => hs.lt (hsession.mp h).2, fun h h' => hs.distinct (hsession.mp h).2 (hsession.mp h').2,
    fun id a hid => ?_, ?_⟩, fun id other => ?_⟩
  · obtain ⟨hne, hid⟩ := hpointer.mp hid
    obtain ⟨other, t, ht, hrecv⟩ := hs.pointers id a hid
    exact ⟨other, t, hsession.mpr ⟨hslot.ne_of_under hs ⟨a, t, hid, ht⟩ hne, ht⟩, hrecv⟩
  · rw [StdMap.lookup_erase_eq, hs.unset, ite_self]
  · constructor
    · rintro ⟨a, t, ha, ht⟩
      obtain ⟨hne, ha⟩ := hpointer.mp ha
      exact ⟨hne, a, t, ha, (hsession.mp ht).2⟩
    · rintro ⟨hne, a, t, ha, ht⟩
      exact ⟨a, t, hpointer.mpr ⟨hne, ha⟩, hsession.mpr ⟨hslot.ne_of_under hs ⟨a, t, ha, ht⟩ hne, ht⟩⟩

theorem Ok.step (hs : Ok state) (op : Op) : Ok (step ctx state op) := by
  cases op with
  | announce ann =>
      by_cases haccepts : accepts ctx ann = true
      · obtain ⟨-, -, -, hok, -⟩ := announce_spec hs haccepts
        exact hok
      · simpa only [Sessions.step, processMessageSigSesAnn, if_neg haccepts] using hs
  | share about => exact (share_spec hs about).1
  | remove signHash =>
      cases hfound : state.sessions.lookup signHash with
      | none => simpa only [Sessions.step, removeSession, hfound] using hs
      | some found => exact (remove_spec hs hfound).1

theorem Ok.exec (hs : Ok state) (ops : List Op) : Ok (Simulation.exec (Sessions.step ctx) state ops) := by
  induction ops generalizing state with
  | nil => exact hs
  | cons op ops ih => exact ih (hs.step op)

/-! ## Agreement with the owners -/

/-- Ids stand for the sessions that are found under them. -/
def Agree (state : CSigSharesNodeState) (owners : Owners) : Prop :=
  Ok state ∧ ∀ id signHash, owners id = some signHash ↔ Under state id signHash

/-- Every session that an id stands for is found under it. -/
def Found (state : CSigSharesNodeState) (owners : Owners) : Prop :=
  ∀ id signHash, owners id = some signHash → Under state id signHash

theorem Owners.release_eq_some (owners : Owners) (signHash other : UInt256) (id : UInt32) :
    owners.release signHash id = some other ↔ owners id = some other ∧ other ≠ signHash := by
  unfold release
  split_ifs with h
  · rw [h]
    exact ⟨fun h => (nomatch h), fun ⟨heq, hne⟩ => absurd (Option.some.inj heq).symm hne⟩
  · refine ⟨fun h' => ⟨h', ?_⟩, And.left⟩
    rintro rfl
    exact h h'

section taken

variable {signHash : UInt256} {address : Nat} {recvSessionId : UInt32} {except : Option UInt32}
  (hs : Ok state) (hslot : Slot state signHash address recvSessionId)

include hs hslot

/-- Where its id was not taken, the session is the only one to lose an id. -/
theorem IdNotTaken.ne_iff (hnot : IdNotTaken state signHash except) {id : UInt32} {other : UInt256}
    (hid : some id ≠ except) (hunder : Under state id other) : id ≠ recvSessionId ↔ other ≠ signHash := by
  refine ⟨hslot.ne_of_under hs hunder, ?_⟩
  rintro hne rfl
  obtain ⟨a, t, ha, ht⟩ := hunder
  rcases hslot with ⟨s, hsession, rfl⟩ | ⟨-, -, rfl⟩
  · rcases hnot address s a hsession ha with hexcept | rfl
    · exact hid hexcept
    · exact hne (hs.distinct ht hsession)
  · exact nomatch hs.unset.symm.trans ha

theorem idNotTaken_of (h : ∀ id other, some id ≠ except → Under state id other → other ≠ signHash →
    id ≠ recvSessionId) : IdNotTaken state signHash except := by
  intro a s pointer hsession hpointer
  by_contra hnot
  obtain ⟨hexcept, hne⟩ := not_or.mp hnot
  obtain ⟨other, t, hother, -⟩ := hs.pointers _ _ hpointer
  refine h s.recvSessionId other hexcept ⟨pointer, t, hpointer, hother⟩ ?_ ?_
  · rintro rfl
    rw [hsession, Option.some.injEq, Prod.mk.injEq] at hother
    exact hne hother.1.symm
  · rcases hslot with ⟨s', hsession', rfl⟩ | ⟨hnone, -, -⟩
    · rw [hsession, Option.some.injEq, Prod.mk.injEq] at hsession'
      rw [hsession'.2]
    · exact nomatch hnone.symm.trans hsession

end taken

variable {owners : Owners}

theorem Agree.step (h : Agree state owners) {op : Op} (hcond : Condition ctx state op) :
    Agree (step ctx state op) (owners.step ctx op) := by
  obtain ⟨hs, howners⟩ := h
  refine ⟨hs.step op, fun id other => ?_⟩
  cases op with
  | announce ann =>
      by_cases haccepts : accepts ctx ann = true
      · obtain ⟨address, recvSessionId, hslot, -, hunder⟩ := announce_spec hs haccepts
        rw [Sessions.step, hunder, Owners.step, if_pos haccepts]
        rcases eq_or_ne id ann.sessionId with rfl | hne
        · rw [Function.update_self, if_pos rfl, Option.some.injEq, eq_comm]
        · rw [Function.update_of_ne hne, if_neg hne, Owners.release_eq_some, howners, and_comm]
          exact and_congr_left fun hold =>
            ((hcond haccepts).ne_iff hs hslot (fun h => hne (Option.some.inj h)) hold).symm
      · simpa only [Sessions.step, Owners.step, processMessageSigSesAnn, if_neg haccepts] using howners id other
  | share about => exact (howners id other).trans ((share_spec hs about).2 id other).symm
  | remove signHash =>
      rw [Owners.step, Owners.release_eq_some, howners, and_comm]
      cases hfound : state.sessions.lookup signHash with
      | none =>
          -- nothing is found that is not there
          simp only [Sessions.step, removeSession, hfound, and_iff_right_iff_imp]
          rintro ⟨a, t, -, ht⟩ rfl
          exact nomatch hfound.symm.trans ht
      | some found =>
          rw [Sessions.step, (remove_spec hs hfound).2]
          exact and_congr_left fun hold =>
            (IdNotTaken.ne_iff hs (.inl ⟨_, hfound, rfl⟩) hcond (fun h => nomatch h) hold).symm

theorem Agree.condition (h : Agree state owners) {op : Op}
    (hfound : Found (Sessions.step ctx state op) (owners.step ctx op)) :
    Condition ctx state op := by
  obtain ⟨hs, howners⟩ := h
  cases op with
  | announce ann =>
      intro haccepts
      obtain ⟨address, recvSessionId, hslot, -, hunder⟩ := announce_spec hs haccepts
      refine idNotTaken_of hs hslot fun id other hid hold hne => ?_
      have hid : id ≠ ann.sessionId := fun h => hid (congrArg some h)
      have hkept : owners.step ctx (.announce ann) id = some other := by
        rw [Owners.step, if_pos haccepts, Function.update_of_ne hid, Owners.release_eq_some]
        exact ⟨(howners id other).mpr hold, hne⟩
      have hnow := (hunder id other).mp (hfound id other hkept)
      rw [if_neg hid] at hnow
      exact hnow.1
  | share about => trivial
  | remove signHash =>
      cases hlookup : state.sessions.lookup signHash with
      | none =>
          intro address s other hsession
          exact nomatch hlookup.symm.trans hsession
      | some session =>
          refine idNotTaken_of hs (.inl ⟨_, hlookup, rfl⟩) fun id other _ hold hne => ?_
          have hkept : owners.step ctx (.remove signHash) id = some other :=
            (owners.release_eq_some signHash other id).mpr ⟨(howners id other).mpr hold, hne⟩
          exact (((remove_spec hs hlookup).2 id other).mp (hfound id other hkept)).1

theorem agree_empty : Agree {} (fun _ => none) := by
  refine ⟨⟨fun h => (nomatch h), fun h => (nomatch h), fun _ _ h => (nomatch h), rfl⟩, fun id signHash => ?_⟩
  exact ⟨fun h => (nomatch h), fun ⟨_, _, h, _⟩ => (nomatch h)⟩

/-- **Pointers to sessions.** After every run each entry is that of a stored session which has the id. And all along
a run every session is found under the id that it was announced under last, while the id was not announced for
another since and the session was not removed, if and only if no announcement and no removal is of a session that has
an id which now is another's. -/
theorem pointers_valid_and_sessions_found (ctx : Context) :
    (∀ ops, PointersValid (Simulation.exec (step ctx) {} ops)) ∧
      ∀ ops, (∀ before after, ops = before ++ after →
          PointersValid (Simulation.exec (step ctx) {} before) ∧
            Found (Simulation.exec (step ctx) {} before) (Simulation.exec (Owners.step ctx) (fun _ => none) before)) ↔
        Simulation.Throughout (step ctx) (Condition ctx) {} ops := by
  constructor
  · intro ops
    exact (agree_empty.1.exec ops).pointers
  · intro ops
    refine Simulation.agree_iff (I := Agree) (P := fun state owners => PointersValid state ∧ Found state owners)
      ?_ ?_ ?_ agree_empty
    · exact fun state owners h => ⟨h.1.pointers, fun id signHash => (h.2 id signHash).mp⟩
    · exact fun state owners op h hop => h.step hop
    · exact fun state owners op h hfound => h.condition hfound.2

/-! Two sessions with one id: the first has the id still, so that its removal takes the pointer to the second. -/

def sampleContext : Context where
  llmqs _ := some 50
  getQuorum _ _ := true
  buildSignHash about := about.id

def sampleAnn (id : UInt256) (sessionId : UInt32) : CSigSesAnn := ⟨⟨1, 1, id, 1⟩, sessionId⟩

def takenRun : List Op := [.announce (sampleAnn 1 5), .announce (sampleAnn 2 5), .remove 1]

theorem not_found_takenRun :
    Simulation.exec (Owners.step sampleContext) (fun _ => none) takenRun 5 = some 2 ∧
      (Simulation.exec (step sampleContext) {} takenRun).sessionByRecvId.lookup 5 = none ∧
      ¬ Found (Simulation.exec (step sampleContext) {} takenRun)
        (Simulation.exec (Owners.step sampleContext) (fun _ => none) takenRun) := by
  have howner : Simulation.exec (Owners.step sampleContext) (fun _ => none) takenRun 5 = some 2 := by decide
  have hlookup : (Simulation.exec (step sampleContext) {} takenRun).sessionByRecvId.lookup 5 = none := by decide
  refine ⟨howner, hlookup, fun h => ?_⟩
  obtain ⟨address, -, hfound, -⟩ := h 5 2 howner
  exact nomatch hlookup.symm.trans hfound

end RavenCash.Evo.Llmq.Sessions
