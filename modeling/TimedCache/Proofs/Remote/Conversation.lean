import TimedCache.Remote.Client

/-!
# Conversations

A **party** works on a wire: it sends commands and goes on with the replies that are ahead on it.
What a party does is a function of the whole wire, although no command depends on replies that come
after it.

**Conversation.**  A party converses with a responder when the replies that it used, one for each
command that it sent, are those that the responder gives to these commands one after another
(`Converses`).

**Dialogue.**  The same, told step by step: either the party is done without touching the wire, or
it sends a command, whatever is ahead, and with the reply goes on as another party (`Dialogue`).  A
dialogue determines what can come out of a conversation (`Dialogue.converses_iff`), and dialogues
are put together where one party goes on as another (`Dialogue.andThen`).

## Main Definitions

* `Responder` — what answers commands
* `Converses` — a party and a responder in conversation
* `Dialogue` — the steps of a conversation
-/

namespace TimedCache.Remote

variable {σ α β γ : Type}

/-- What answers commands, from a state of its own. -/
abbrev Responder (σ : Type) := Command → σ → Reply × σ

/-- The replies to several commands, one after another. -/
def Responder.all (respond : Responder σ) : List Command → σ → List Reply × σ
  | [], state => ([], state)
  | command :: commands, state =>
    let (reply, state) := respond command state
    let (replies, state) := respond.all commands state
    (reply :: replies, state)

theorem Responder.all_cons (respond : Responder σ) (command : Command) (commands : List Command)
    (state : σ) :
    respond.all (command :: commands) state =
      ((respond command state).1 :: (respond.all commands (respond command state).2).1,
        (respond.all commands (respond command state).2).2) := rfl

/-- What works on a wire. -/
abbrev Party (α : Type) := Wire → α × Wire

namespace Party

/-- Hands on another form of the result. -/
def map (f : α → β) (party : Party α) : Party β := fun wire => (f (party wire).1, (party wire).2)

/-- Goes on as another party, which depends on the result. -/
def andThen (party : Party α) (second : α → Party β) : Party β := fun wire =>
  second (party wire).1 (party wire).2

/-- What was sent stays sent. -/
def Grows (party : Party α) : Prop := ∀ wire, wire.sent <+: (party wire).2.sent

theorem Grows.andThen {party : Party α} {second : α → Party β} (first : party.Grows)
    (rest : ∀ value, (second value).Grows) : (party.andThen second).Grows := fun wire =>
  (first wire).trans (rest (party wire).1 (party wire).2)

end Party

/-- A party and a responder are through with each other: all replies were used, and they are the
replies to what was sent. -/
def Converses (respond : Responder σ) (party : Party α) (before : σ) (result : α) (after : σ) :
    Prop :=
  ∃ replies sent, party (.fresh (replies.map .replied)) = (result, ⟨sent, []⟩) ∧
    respond.all sent before = (replies, after)

/-- The steps of a conversation. -/
inductive Dialogue (respond : Responder σ) : Party α → σ → α → σ → Prop
  /-- The party is done, and leaves the wire as it is. -/
  | silent {party : Party α} {state : σ} {result : α} (done : ∀ wire, party wire = (result, wire)) :
      Dialogue respond party state result state
  /-- The party sends a command before it knows anything, and goes on with the reply. -/
  | ask {party next : Party α} {before after : σ} {result : α} (command : Command)
      (asks : ∀ sent (replies : List Reply),
        sent ++ [command] <+: (party ⟨sent, replies.map .replied⟩).2.sent)
      (goesOn : ∀ sent ahead,
        party ⟨sent, .replied (respond command before).1 :: ahead⟩ =
          next ⟨sent ++ [command], ahead⟩)
      (rest : Dialogue respond next (respond command before).2 result after) :
      Dialogue respond party before result after

namespace Dialogue

variable {respond : Responder σ} {party : Party α} {before middle after : σ} {result : α}

/-- What the party uses and sends in a dialogue, whatever was sent before and is ahead after. -/
theorem forward (dialogue : Dialogue respond party before result after) :
    ∃ (replies : List Reply) (commands : List Command),
      respond.all commands before = (replies, after) ∧ ∀ sent ahead,
        party ⟨sent, replies.map .replied ++ ahead⟩ = (result, ⟨sent ++ commands, ahead⟩) := by
  induction dialogue with
  | silent done =>
      refine ⟨[], [], rfl, fun sent ahead => ?_⟩
      rw [done, List.append_nil]
      rfl
  | @ask party next before after result command asks goesOn rest ih =>
      obtain ⟨replies, commands, answers, used⟩ := ih
      refine ⟨(respond command before).1 :: replies, command :: commands, ?_, ?_⟩
      · rw [Responder.all_cons, answers]
      · intro sent ahead
        rw [List.map_cons, List.cons_append, goesOn, used, List.append_assoc]
        rfl

/-- Whatever the party was told, if it was told what the responder says to what it sent, it went
through the dialogue. -/
theorem backward (dialogue : Dialogue respond party before result after) {sent : List Command}
    {replies : List Reply} {commands : List Command} {other : α} {state : σ}
    (through : party ⟨sent, replies.map .replied⟩ = (other, ⟨sent ++ commands, []⟩))
    (answers : respond.all commands before = (replies, state)) :
    other = result ∧ state = after := by
  induction dialogue generalizing sent replies commands with
  | silent done =>
      rw [done] at through
      injection through with same wires
      injection wires with same' nothing
      rw [List.map_eq_nil_iff.mp nothing] at answers
      cases commands with
      | nil =>
          injection answers with none last
          exact ⟨same.symm, last.symm⟩
      | cons command commands =>
          injection answers with absurd
          cases absurd
  | @ask party next before after result command asks goesOn rest ih =>
      -- The first command does not depend on any reply.
      have first := asks sent replies
      rw [through] at first
      obtain ⟨later, eq⟩ := first
      rw [List.append_assoc] at eq
      have eq := List.append_cancel_left eq
      rw [List.singleton_append] at eq
      subst eq
      injection answers with told last
      subst told
      rw [List.map_cons, goesOn, List.append_cons sent command later] at through
      exact ih through (Prod.ext rfl last)

/-- **A dialogue determines the conversation.** -/
theorem converses_iff (dialogue : Dialogue respond party before result after) {other : α}
    {state : σ} :
    Converses respond party before other state ↔ other = result ∧ state = after := by
  constructor
  · rintro ⟨replies, sent, through, answers⟩
    have alone : party ⟨[], replies.map .replied⟩ = (other, ⟨[] ++ sent, []⟩) := through
    exact dialogue.backward alone answers
  · rintro ⟨rfl, rfl⟩
    obtain ⟨replies, commands, answers, used⟩ := dialogue.forward
    refine ⟨replies, commands, ?_, answers⟩
    have through := used [] []
    rw [List.append_nil, List.nil_append] at through
    exact through

/-- A party that hands on another form of its result. -/
theorem map (f : α → β) (dialogue : Dialogue respond party before result after) :
    Dialogue respond (party.map f) before (f result) after := by
  induction dialogue with
  | silent done =>
      refine .silent fun wire => ?_
      rw [Party.map, done]
  | ask command asks goesOn rest ih =>
      refine .ask command asks (fun sent ahead => ?_) ih
      rw [Party.map, Party.map, goesOn]

/-- **One party after the other.** -/
theorem andThen {second : α → Party β} {final : β}
    (dialogue : Dialogue respond party before result middle)
    (grows : ∀ value, (second value).Grows)
    (rest : Dialogue respond (second result) middle final after) :
    Dialogue respond (party.andThen second) before final after := by
  induction dialogue with
  | @silent party state result done =>
      have same : party.andThen second = second result := by
        funext wire
        rw [Party.andThen, done]
      rw [same]
      exact rest
  | ask command asks goesOn rest' ih =>
      refine .ask command (fun sent replies => ?_) (fun sent ahead => ?_) (ih rest)
      · exact (asks sent replies).trans (grows _ _)
      · rw [Party.andThen, Party.andThen, goesOn]

end Dialogue

/-! ### Queries -/

namespace Wire

theorem query_snd (read : Reply → Option α) (command : Command) (wire : Wire) :
    (wire.query read command).2 = (wire.send command).2 := by
  unfold query
  cases wire.send command with
  | mk said wire' =>
      cases said with
      | error failure => rfl
      | ok reply =>
          dsimp only
          cases read reply <;> rfl

/-- Sending takes back nothing that was sent. -/
theorem send_grows (command : Command) (wire : Wire) :
    wire.sent <+: (wire.send command).2.sent := by
  unfold send
  split
  next => exact List.prefix_append wire.sent [command]
  next => exact List.prefix_append wire.sent [command]
  next => exact List.prefix_append wire.sent [command]
  next => exact List.prefix_refl wire.sent

/-- A query takes back nothing that was sent. -/
theorem query_grows (read : Reply → Option α) (command : Command) :
    Party.Grows (query read command) := by
  intro wire
  rw [query_snd]
  exact send_grows command wire

/-- A query sends its command, whatever the replies ahead are. -/
theorem sent_query (read : Reply → Option α) (command : Command) (sent : List Command)
    (replies : List Reply) :
    (query read command ⟨sent, replies.map .replied⟩).2.sent = sent ++ [command] := by
  rw [query_snd]
  cases replies <;> rfl

/-- A query reads the reply that is ahead. -/
theorem query_replied {read : Reply → Option α} {reply : Reply} {value : α}
    (reads : read reply = some value) (command : Command) (sent : List Command)
    (ahead : List Exchange) :
    query read command ⟨sent, .replied reply :: ahead⟩ =
      (.ok value, ⟨sent ++ [command], ahead⟩) := by
  unfold query send
  dsimp only
  rw [reads]

/-- A query that succeeds has used one exchange. -/
theorem length_ahead_of_query {read : Reply → Option α} {command : Command} {wire wire' : Wire}
    {value : α} (succeeds : wire.query read command = (.ok value, wire')) :
    wire.ahead.length = wire'.ahead.length + 1 := by
  obtain ⟨sent, ahead⟩ := wire
  unfold query send at succeeds
  cases ahead with
  | nil => cases succeeds
  | cons exchange ahead =>
      cases exchange with
      | broken failure => cases succeeds
      | withheld failure => cases succeeds
      | replied reply =>
          dsimp only at succeeds
          cases reads : read reply with
          | none =>
              rw [reads] at succeeds
              cases succeeds
          | some value' =>
              rw [reads] at succeeds
              cases succeeds
              rfl

end Wire

/-- One query is a dialogue of one step. -/
theorem Dialogue.query {respond : Responder σ} {before : σ} {read : Reply → Option α}
    {command : Command} {value : α} (reads : read (respond command before).1 = some value) :
    Dialogue respond (Wire.query read command) before (.ok value) (respond command before).2 := by
  let done : Party (Except CacheError α) := fun wire => (.ok value, wire)
  have rest : Dialogue respond done (respond command before).2 (.ok value)
      (respond command before).2 := .silent fun _ => rfl
  refine .ask command (fun sent replies => ?_) (fun sent ahead => ?_) rest
  · refine ⟨[], ?_⟩
    rw [Wire.sent_query, List.append_nil]
  · exact Wire.query_replied reads command sent ahead

/-- A query whose reply cannot be read is a dialogue of one step, too. -/
theorem Dialogue.query_unread {respond : Responder σ} {before : σ} {read : Reply → Option α}
    {command : Command} (unread : read (respond command before).1 = none) :
    Dialogue respond (Wire.query read command) before (.error Wire.badReply)
      (respond command before).2 := by
  let done : Party (Except CacheError α) := fun wire => (.error Wire.badReply, wire)
  have rest : Dialogue respond done (respond command before).2 (.error Wire.badReply)
      (respond command before).2 := .silent fun _ => rfl
  refine .ask command (fun sent replies => ?_) (fun sent ahead => ?_) rest
  · refine ⟨[], ?_⟩
    rw [Wire.sent_query, List.append_nil]
  · unfold Wire.query Wire.send
    dsimp only
    rw [unread]

/-! ### Loops -/

namespace Client

/-- A failure ends a party. -/
def failing (failure : CacheError) : Party (Except CacheError α) := fun wire =>
  (.error failure, wire)

theorem failing_grows (failure : CacheError) : (failing (α := α) failure).Grows := fun wire =>
  List.prefix_refl wire.sent

/-- What a scan makes of the reply to one of its commands. -/
def scanOn (pattern : Bytes) (keys : List Bytes) :
    Except CacheError (Nat × List Bytes) → Party (Except CacheError (List Bytes))
  | .error failure => failing failure
  | .ok (next, batch) => fun wire =>
    if next = 0 then (.ok (keys ++ batch), wire)
    else scanFrom pattern (wire.ahead.length + 1) next (keys ++ batch) wire

/-- A scan that has as much fuel as there are exchanges ahead goes on with as much fuel. -/
theorem scanFrom_eq (pattern : Bytes) (cursor : Nat) (keys : List Bytes) :
    (fun wire => scanFrom pattern (wire.ahead.length + 1) cursor keys wire) =
      Party.andThen (Wire.query Reply.cursorAndKeys? (.scan cursor pattern scanBatch))
        (scanOn pattern keys) := by
  funext wire
  rw [scanFrom, Party.andThen]
  cases asked : wire.query Reply.cursorAndKeys? (.scan cursor pattern scanBatch) with
  | mk said wire' =>
      cases said with
      | error failure => rfl
      | ok said =>
          obtain ⟨next, batch⟩ := said
          dsimp only [scanOn]
          rw [Wire.length_ahead_of_query asked]

theorem scanFrom_grows (pattern : Bytes) (fuel cursor : Nat) (keys : List Bytes) :
    Party.Grows (scanFrom pattern fuel cursor keys) := by
  induction fuel generalizing cursor keys with
  | zero =>
      intro wire
      exact List.prefix_refl wire.sent
  | succ fuel ih =>
      intro wire
      have grows := Wire.query_grows Reply.cursorAndKeys? (.scan cursor pattern scanBatch) wire
      rw [scanFrom]
      cases asked : wire.query Reply.cursorAndKeys? (.scan cursor pattern scanBatch) with
      | mk said wire' =>
          rw [asked] at grows
          cases said with
          | error failure => exact grows
          | ok said =>
              obtain ⟨next, batch⟩ := said
              dsimp only
              split
              · exact grows
              · exact grows.trans (ih next (keys ++ batch) wire')

theorem scanOn_grows (pattern : Bytes) (keys : List Bytes)
    (said : Except CacheError (Nat × List Bytes)) : (scanOn pattern keys said).Grows := by
  cases said with
  | error failure => exact failing_grows failure
  | ok said =>
      intro wire
      obtain ⟨next, batch⟩ := said
      dsimp only [scanOn]
      split
      · exact List.prefix_refl wire.sent
      · exact scanFrom_grows pattern _ next (keys ++ batch) wire

/-- What the deletion of chunks makes of the reply to one of its commands. -/
def deleteOn (chunks : List (List Bytes)) (removed : Nat) :
    Except CacheError Int → Party (Except CacheError Nat)
  | .error failure => failing failure
  | .ok count => deleteChunks chunks (removed + count.toNat)

theorem deleteChunks_cons (chunk : List Bytes) (chunks : List (List Bytes)) (removed : Nat) :
    deleteChunks (chunk :: chunks) removed =
      Party.andThen (Wire.query Reply.integer? (.del chunk)) (deleteOn chunks removed) := by
  funext wire
  rw [deleteChunks, Party.andThen]
  cases wire.query Reply.integer? (.del chunk) with
  | mk said wire' => cases said <;> rfl

theorem deleteChunks_grows (chunks : List (List Bytes)) (removed : Nat) :
    Party.Grows (deleteChunks chunks removed) := by
  induction chunks generalizing removed with
  | nil =>
      intro wire
      exact List.prefix_refl wire.sent
  | cons chunk chunks ih =>
      rw [deleteChunks_cons]
      refine (Wire.query_grows Reply.integer? (.del chunk)).andThen fun said => ?_
      cases said with
      | error failure => exact failing_grows failure
      | ok count => exact ih (removed + count.toNat)

theorem deleteOn_grows (chunks : List (List Bytes)) (removed : Nat)
    (said : Except CacheError Int) : (deleteOn chunks removed said).Grows := by
  cases said with
  | error failure => exact failing_grows failure
  | ok count => exact deleteChunks_grows chunks (removed + count.toNat)

/-- What a pipeline of writes makes of the reply to one of its commands. -/
def writeOn (commands : List Command) : Except CacheError Unit → Party (Except CacheError Unit)
  | .ok () => sendWrites commands
  | .error failure => Party.map (fun _ => .error failure) (sendWrites commands)

theorem sendWrites_cons (command : Command) (commands : List Command) :
    sendWrites (command :: commands) =
      Party.andThen (Wire.query success? command) (writeOn commands) := by
  funext wire
  rw [sendWrites, Party.andThen]
  cases wire.query success? command with
  | mk said wire' => cases said <;> rfl

theorem sendWrites_grows (commands : List Command) : Party.Grows (sendWrites commands) := by
  induction commands with
  | nil =>
      intro wire
      exact List.prefix_refl wire.sent
  | cons command commands ih =>
      rw [sendWrites_cons]
      refine (Wire.query_grows success? command).andThen fun said => ?_
      cases said <;> exact ih

theorem writeOn_grows (commands : List Command) (said : Except CacheError Unit) :
    (writeOn commands said).Grows := by
  cases said <;> exact sendWrites_grows commands

/-- Writes that all succeed succeed as a whole. -/
theorem dialogue_sendWrites {respond : Responder σ} (commands : List Command)
    (succeed : ∀ command ∈ commands, ∀ state, success? (respond command state).1 = some ())
    (before : σ) :
    Dialogue respond (sendWrites commands) before (.ok ()) (respond.all commands before).2 := by
  induction commands generalizing before with
  | nil => exact .silent fun _ => rfl
  | cons command commands ih =>
      rw [List.forall_mem_cons] at succeed
      have first := Dialogue.query (succeed.1 before)
      have rest := ih succeed.2 (respond command before).2
      rw [sendWrites_cons]
      exact first.andThen (writeOn_grows commands) rest

end Client

end TimedCache.Remote
