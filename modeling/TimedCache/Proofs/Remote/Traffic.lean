import TimedCache.Proofs.Remote.Outcome

/-!
# What the traffic on a wire does to the server

A conversation in which every command is answered is the good case.  Here an exchange may end in
any way: the command arrives and the reply is lost, or neither arrives, or the command is not even
sent.  What the server makes of the commands is then a relation between the stages of a wire, with
a choice for each exchange that breaks (`Wire.Served`).

**Orderly parties.**  A party that works on a wire by nothing but sending takes it through stages,
one for each command (`Wire.Passes`).  Stages are determined by where the wire ends, so what is
served to two parties one after the other is served to the first and then to the second
(`Wire.Served.split`).

**Invariants.**  What each single command keeps, a party keeps that sends only such commands
(`Party.Keeps`), and loops are treated by the equations that take their first command off.

## Main Definitions

* `Wire.Served` — what a server does between two stages of a wire
* `Party.Orderly` — all that a party does to a wire is to send
* `Party.Keeps` — an invariant of the server, and what is known of the result
-/

namespace TimedCache.Remote

variable {σ α β : Type} {respond : Responder σ}

/-! ### Stages of a wire -/

/-- What the server makes of a command that is sent, by what becomes of the exchange. -/
inductive Responder.Meets (respond : Responder σ) (command : Command) :
    Exchange → σ → σ → Prop
  | replied {state : σ} :
      respond.Meets command (.replied (respond command state).1) state (respond command state).2
  /-- The connection breaks before the command arrives. -/
  | lost {failure : CacheError} {state : σ} : respond.Meets command (.broken failure) state state
  /-- The connection breaks before the reply arrives. -/
  | unheard {failure : CacheError} {state : σ} :
      respond.Meets command (.broken failure) state (respond command state).2

/-- Carrying a command out keeps an invariant. -/
def Responder.Maintains (respond : Responder σ) (invariant : σ → Prop) (command : Command) : Prop :=
  ∀ state, invariant state → invariant (respond command state).2

namespace Wire

/-- What the server does between two stages of a wire. -/
inductive Served (respond : Responder σ) : Wire → σ → Wire → σ → Prop
  | done {wire : Wire} {state : σ} : Served respond wire state wire state
  | meets {sent : List Command} {ahead : List Exchange} {exchange : Exchange} {wire : Wire}
      {before middle after : σ} (command : Command)
      (meets : respond.Meets command exchange before middle)
      (rest : Served respond ⟨sent ++ [command], ahead⟩ middle wire after) :
      Served respond ⟨sent, exchange :: ahead⟩ before wire after
  | withheld {sent : List Command} {ahead : List Exchange} {failure : CacheError} {wire : Wire}
      {before after : σ} (rest : Served respond ⟨sent, ahead⟩ before wire after) :
      Served respond ⟨sent, .withheld failure :: ahead⟩ before wire after

/-- One wire becomes another by sending. -/
inductive Passes : Wire → Wire → Prop
  | refl (wire : Wire) : Passes wire wire
  | send {wire wire' : Wire} (command : Command) (rest : Passes (wire.send command).2 wire') :
      Passes wire wire'

variable {wire middle final : Wire} {state before after : σ}

/-- What was sent stays sent. -/
theorem Served.sent_prefix (served : Served respond wire before final after) :
    wire.sent <+: final.sent := by
  induction served with
  | done => exact List.prefix_refl _
  | meets command _ rest ih => exact (List.prefix_append _ [command]).trans ih
  | withheld rest ih => exact ih

/-- The exchanges ahead become fewer. -/
theorem Served.length_ahead_le (served : Served respond wire before final after) :
    final.ahead.length ≤ wire.ahead.length := by
  induction served with
  | done => exact Nat.le_refl _
  | meets command _ rest ih => exact Nat.le_succ_of_le ih
  | withheld rest ih => exact Nat.le_succ_of_le ih

/-- Nothing is done where no exchange is used. -/
theorem Served.eq_of_length_ahead (served : Served respond wire before final after)
    (same : final.ahead.length = wire.ahead.length) : final = wire ∧ after = before := by
  cases served with
  | done => exact ⟨rfl, rfl⟩
  | meets command _ rest =>
      have fewer := rest.length_ahead_le
      rw [same, List.length_cons] at fewer
      exact absurd fewer (Nat.not_succ_le_self _)
  | withheld rest =>
      have fewer := rest.length_ahead_le
      rw [same, List.length_cons] at fewer
      exact absurd fewer (Nat.not_succ_le_self _)

theorem Passes.sent_prefix (passes : Passes wire final) : wire.sent <+: final.sent := by
  induction passes with
  | refl => exact List.prefix_refl _
  | send command rest ih => exact (send_grows command _).trans ih

theorem Passes.length_ahead_le (passes : Passes wire final) :
    final.ahead.length ≤ wire.ahead.length := by
  induction passes with
  | refl => exact Nat.le_refl _
  | @send wire wire' command rest ih =>
      refine ih.trans ?_
      unfold Wire.send
      split
      next none => rw [none]
      next first => exact first ▸ Nat.le_succ _
      next first => exact first ▸ Nat.le_succ _
      next first => exact first ▸ Nat.le_succ _

theorem Passes.trans (first : Passes wire middle) (second : Passes middle final) :
    Passes wire final := by
  induction first with
  | refl => exact second
  | send command rest ih => exact .send command (ih second)

/-- A wire does not come back to where it was before a command. -/
theorem not_passes_back (command : Command) (wire : Wire) :
    ¬Passes (wire.send command).2 wire := by
  intro back
  have sent := back.sent_prefix.length_le
  have ahead := back.length_ahead_le
  unfold send at sent ahead
  split at sent
  next => simp at sent
  next => simp at sent
  next => simp at sent
  next first => simp [first] at ahead

/-- **What is served between two stages is served up to any stage in between, and from there.** -/
theorem Served.split (first : Passes wire middle) (second : Passes middle final)
    (served : Served respond wire before final after) :
    ∃ state, Served respond wire before middle state ∧ Served respond middle state final after := by
  induction first generalizing before with
  | refl => exact ⟨before, .done, served⟩
  | @send wire middle command rest ih =>
      have passes := rest.trans second
      cases served with
      | done => exact absurd passes (not_passes_back command _)
      | @meets sent ahead exchange _ _ between _ other meets served' =>
          -- Both commands stand in the same place of what was sent in the end.
          have sends : ((⟨sent, exchange :: ahead⟩ : Wire).send command).2 =
              ⟨sent ++ [command], ahead⟩ := by
            cases meets <;> rfl
          rw [sends] at passes ih
          have one := passes.sent_prefix
          have two := served'.sent_prefix
          have same := List.prefix_of_prefix_length_le one two (by simp)
          have eq := same.eq_of_length (by simp)
          have eq := List.append_cancel_left eq
          injection eq with eq
          subst eq
          obtain ⟨state, before', after'⟩ := ih second served'
          exact ⟨state, .meets command meets before', after'⟩
      | withheld served' =>
          obtain ⟨state, before', after'⟩ := ih second served'
          exact ⟨state, .withheld before', after'⟩

/-- Where every command is answered, the server carries all of them out. -/
theorem served_all (commands sent : List Command) (state : σ) :
    Served respond ⟨sent, (respond.all commands state).1.map .replied⟩ state
      ⟨sent ++ commands, []⟩ (respond.all commands state).2 := by
  induction commands generalizing sent state with
  | nil =>
      rw [List.append_nil]
      exact .done
  | cons command commands ih =>
      rw [List.append_cons]
      exact .meets command .replied (ih (sent ++ [command]) (respond command state).2)

end Wire

/-! ### Parties -/

/-- A conversation is the case in which every command is answered. -/
theorem Converses.served {party : Party α} {before after : σ} {result : α}
    (converses : Converses respond party before result after) :
    ∃ exchanges, Wire.Served respond (.fresh exchanges) before (party (.fresh exchanges)).2 after ∧
      (party (.fresh exchanges)).1 = result := by
  obtain ⟨replies, sent, through, answers⟩ := converses
  have served : Wire.Served respond _ _ _ _ := Wire.served_all sent [] before
  rw [answers] at served
  refine ⟨replies.map .replied, ?_, ?_⟩
  · rw [through]
    exact served
  · rw [through]

/-- All that a party does to a wire is to send. -/
def Party.Orderly (party : Party α) : Prop := ∀ wire, Wire.Passes wire (party wire).2

/-- A party keeps an invariant of the server, and when it is through, something is known of its
result. -/
def Party.Keeps (respond : Responder σ) (invariant : σ → Prop) (party : Party α)
    (known : α → Prop) : Prop :=
  ∀ wire before after, invariant before →
    Wire.Served respond wire before (party wire).2 after →
    invariant after ∧ known (party wire).1

namespace Party

variable {invariant : σ → Prop} {party : Party α} {known : α → Prop} {wanted : β → Prop}

theorem Orderly.andThen {second : α → Party β} (first : party.Orderly)
    (rest : ∀ value, (second value).Orderly) : (party.andThen second).Orderly := fun wire =>
  (first wire).trans (rest (party wire).1 (party wire).2)

theorem Orderly.map (orderly : party.Orderly) (f : α → β) : (party.map f).Orderly := orderly

/-- A party that leaves the wire alone. -/
theorem orderly_of_silent (silent : ∀ wire, (party wire).2 = wire) : party.Orderly := by
  intro wire
  rw [silent]
  exact .refl wire

theorem keeps_of_silent (silent : ∀ wire, (party wire).2 = wire)
    (knows : ∀ wire, known (party wire).1) : party.Keeps respond invariant known := by
  intro wire before after holds served
  rw [silent] at served
  obtain ⟨-, rfl⟩ := served.eq_of_length_ahead rfl
  exact ⟨holds, knows wire⟩

theorem Keeps.map {f : α → β} (keeps : party.Keeps respond invariant known)
    (leads : ∀ value, known value → wanted (f value)) :
    (party.map f).Keeps respond invariant wanted := by
  intro wire before after holds served
  obtain ⟨holds, knows⟩ := keeps wire before after holds served
  exact ⟨holds, leads _ knows⟩

/-- **One party after the other.** -/
theorem Keeps.andThen {second : α → Party β} (first : party.Keeps respond invariant known)
    (orderly : party.Orderly) (rest : ∀ value, (second value).Orderly)
    (keeps : ∀ value, known value → (second value).Keeps respond invariant wanted) :
    (party.andThen second).Keeps respond invariant wanted := by
  intro wire before after holds served
  obtain ⟨state, served, served'⟩ := served.split (orderly wire) (rest _ _)
  obtain ⟨holds, knows⟩ := first wire before state holds served
  exact keeps _ knows _ state after holds served'

end Party

namespace Wire

theorem query_orderly (read : Reply → Option α) (command : Command) :
    Party.Orderly (query read command) := by
  intro wire
  rw [query_snd]
  exact .send command (.refl _)

/-- What is served when one command goes through is what the server makes of that command. -/
theorem Served.meets_of_sent {sent : List Command} {command : Command} {exchange : Exchange}
    {ahead : List Exchange} {before after : σ}
    (served : Served respond ⟨sent, exchange :: ahead⟩ before ⟨sent ++ [command], ahead⟩ after) :
    respond.Meets command exchange before after := by
  generalize goal : (⟨sent ++ [command], ahead⟩ : Wire) = final at served
  cases served with
  | done => simp at goal
  | meets other meets rest =>
      subst goal
      obtain ⟨same, rfl⟩ := rest.eq_of_length_ahead rfl
      injection same with same
      have same := List.append_cancel_left same
      injection same with same
      rw [same]
      exact meets
  | withheld rest =>
      subst goal
      obtain ⟨same, -⟩ := rest.eq_of_length_ahead rfl
      simp at same

/-- What is served when a command goes through is served in any state in which the reply is the
same. -/
theorem Served.of_same_reply {command : Command} {wire : Wire} {before before' after : σ}
    (served : Served respond wire before (wire.send command).2 after)
    (same : (respond command before).1 = (respond command before').1) :
    ∃ after', Served respond wire before' (wire.send command).2 after' := by
  obtain ⟨sent, ahead⟩ := wire
  match ahead, served with
  | [], served =>
      obtain ⟨same, -⟩ := served.eq_of_length_ahead rfl
      simp [send] at same
  | .replied reply :: ahead, served =>
      cases served.meets_of_sent with
      | replied =>
          rw [same]
          exact ⟨_, .meets command .replied .done⟩
  | .broken failure :: ahead, served => exact ⟨_, .meets command .lost .done⟩
  | .withheld failure :: ahead, served => exact ⟨_, .withheld .done⟩

/-- **One query.**  The server stays as it is or carries the command out, and a query that succeeds
has read the reply. -/
theorem served_query {read : Reply → Option α} {command : Command} {wire : Wire} {before after : σ}
    (served : Served respond wire before (query read command wire).2 after) :
    (after = before ∨ after = (respond command before).2) ∧
      ∀ value, (query read command wire).1 = .ok value →
        read (respond command before).1 = some value := by
  obtain ⟨sent, ahead⟩ := wire
  rw [query_snd] at served
  match ahead, served with
  | [], served =>
      obtain ⟨same, -⟩ := served.eq_of_length_ahead rfl
      simp [send] at same
  | .replied reply :: ahead, served =>
      cases served.meets_of_sent with
      | replied =>
          refine ⟨.inr rfl, fun value succeeds => ?_⟩
          unfold query send at succeeds
          dsimp only at succeeds
          cases reads : read (respond command before).1 with
          | none =>
              rw [reads] at succeeds
              cases succeeds
          | some other =>
              rw [reads] at succeeds
              cases succeeds
              rfl
  | .broken failure :: ahead, served =>
      cases served.meets_of_sent with
      | lost => exact ⟨.inl rfl, fun value absurd => nomatch absurd⟩
      | unheard => exact ⟨.inr rfl, fun value absurd => nomatch absurd⟩
  | .withheld failure :: ahead, served =>
      cases served with
      | meets other meets _ => cases meets
      | withheld rest =>
          obtain ⟨-, rfl⟩ := rest.eq_of_length_ahead rfl
          exact ⟨.inl rfl, fun value absurd => nomatch absurd⟩

/-- A command that keeps the invariant may be sent. -/
theorem keeps_query {invariant : σ → Prop} {read : Reply → Option α} {command : Command}
    {known : Except CacheError α → Prop} (kept : respond.Maintains invariant command)
    (fails : ∀ failure, known (.error failure))
    (reads : ∀ state value, invariant state → read (respond command state).1 = some value →
      known (.ok value)) :
    Party.Keeps respond invariant (query read command) known := by
  intro wire before after holds served
  obtain ⟨serves, succeeds⟩ := served_query served
  constructor
  · rcases serves with rfl | rfl
    · exact holds
    · exact kept before holds
  · cases said : (query read command wire).1 with
    | error failure => exact fails failure
    | ok value => exact reads before value holds (succeeds value said)

end Wire

/-! ### Loops -/

namespace Client

variable {invariant : σ → Prop}

theorem failing_orderly (failure : CacheError) : (failing (α := α) failure).Orderly :=
  Party.orderly_of_silent fun _ => rfl

/-- What a scan with some fuel left makes of the reply to one of its commands. -/
def scanNext (pattern : Bytes) (fuel : Nat) (keys : List Bytes) :
    Except CacheError (Nat × List Bytes) → Party (Except CacheError (List Bytes))
  | .error failure => failing failure
  | .ok (next, batch) =>
    if next = 0 then fun wire => (.ok (keys ++ batch), wire)
    else scanFrom pattern fuel next (keys ++ batch)

theorem scanFrom_succ (pattern : Bytes) (fuel cursor : Nat) (keys : List Bytes) :
    scanFrom pattern (fuel + 1) cursor keys =
      Party.andThen (Wire.query Reply.cursorAndKeys? (.scan cursor pattern scanBatch))
        (scanNext pattern fuel keys) := by
  funext wire
  rw [scanFrom, Party.andThen]
  cases wire.query Reply.cursorAndKeys? (.scan cursor pattern scanBatch) with
  | mk said wire' =>
      cases said with
      | error failure => rfl
      | ok said =>
          obtain ⟨next, batch⟩ := said
          dsimp only [scanNext]
          split <;> rfl

theorem scanNext_orderly {pattern : Bytes} {fuel : Nat}
    (rest : ∀ next keys, Party.Orderly (scanFrom pattern fuel next keys)) (keys : List Bytes)
    (said : Except CacheError (Nat × List Bytes)) : (scanNext pattern fuel keys said).Orderly := by
  cases said with
  | error failure => exact failing_orderly failure
  | ok said =>
      obtain ⟨next, batch⟩ := said
      dsimp only [scanNext]
      split
      · exact Party.orderly_of_silent fun _ => rfl
      · exact rest next (keys ++ batch)

theorem scanFrom_orderly (pattern : Bytes) (fuel cursor : Nat) (keys : List Bytes) :
    Party.Orderly (scanFrom pattern fuel cursor keys) := by
  induction fuel generalizing cursor keys with
  | zero => exact failing_orderly Wire.silence
  | succ fuel ih =>
      rw [scanFrom_succ]
      exact (Wire.query_orderly _ _).andThen (scanNext_orderly ih keys)

theorem scan_orderly (pattern : Bytes) : Party.Orderly (scan pattern) := fun wire =>
  scanFrom_orderly pattern (wire.ahead.length + 1) 0 [] wire

theorem deleteOn_orderly {chunks : List (List Bytes)}
    (rest : ∀ removed, Party.Orderly (deleteChunks chunks removed)) (removed : Nat)
    (said : Except CacheError Int) : (deleteOn chunks removed said).Orderly := by
  cases said with
  | error failure => exact failing_orderly failure
  | ok count => exact rest (removed + count.toNat)

theorem deleteChunks_orderly (chunks : List (List Bytes)) (removed : Nat) :
    Party.Orderly (deleteChunks chunks removed) := by
  induction chunks generalizing removed with
  | nil => exact Party.orderly_of_silent fun _ => rfl
  | cons chunk chunks ih =>
      rw [deleteChunks_cons]
      exact (Wire.query_orderly _ _).andThen (deleteOn_orderly ih removed)

theorem writeOn_orderly {commands : List Command} (rest : Party.Orderly (sendWrites commands))
    (said : Except CacheError Unit) : (writeOn commands said).Orderly := by
  cases said <;> exact rest

theorem sendWrites_orderly (commands : List Command) : Party.Orderly (sendWrites commands) := by
  induction commands with
  | nil => exact Party.orderly_of_silent fun _ => rfl
  | cons command commands ih =>
      rw [sendWrites_cons]
      exact (Wire.query_orderly _ _).andThen (writeOn_orderly ih)

section Scan

variable {pattern : Bytes} {told : Bytes → Prop}
  (kept : ∀ cursor, respond.Maintains invariant (.scan cursor pattern scanBatch))
  (tells : ∀ cursor state next batch,
    (respond (.scan cursor pattern scanBatch) state).1.cursorAndKeys? = some (next, batch) →
      ∀ key ∈ batch, told key)

include kept tells

theorem keeps_scanFrom (fuel cursor : Nat) {keys : List Bytes} (before : ∀ key ∈ keys, told key) :
    Party.Keeps respond invariant (scanFrom pattern fuel cursor keys) fun said =>
      ∀ found, said = .ok found → ∀ key ∈ found, told key := by
  induction fuel generalizing cursor keys with
  | zero => exact Party.keeps_of_silent (fun _ => rfl) fun _ _ absurd => nomatch absurd
  | succ fuel ih =>
      rw [scanFrom_succ]
      have first : Party.Keeps respond invariant
          (Wire.query Reply.cursorAndKeys? (.scan cursor pattern scanBatch)) fun said =>
            ∀ next batch, said = .ok (next, batch) → ∀ key ∈ batch, told key :=
        Wire.keeps_query (kept cursor) (fun _ _ _ absurd => nomatch absurd)
          fun state value _ reads next batch same => by
            cases same
            exact tells cursor state next batch reads
      refine first.andThen (Wire.query_orderly _ _)
        (scanNext_orderly (scanFrom_orderly pattern fuel) keys) fun said knows => ?_
      cases said with
      | error failure => exact Party.keeps_of_silent (fun _ => rfl) fun _ _ absurd => nomatch absurd
      | ok said =>
          obtain ⟨next, batch⟩ := said
          have all : ∀ key ∈ keys ++ batch, told key := fun key mem =>
            (List.mem_append.mp mem).elim (before key) (knows next batch rfl key)
          dsimp only [scanNext]
          split
          · refine Party.keeps_of_silent (fun _ => rfl) fun _ found same => ?_
            cases same
            exact all
          · exact ih next all

/-- A scan collects only keys that the server tells of. -/
theorem keeps_scan : Party.Keeps respond invariant (scan pattern) fun said =>
    ∀ found, said = .ok found → ∀ key ∈ found, told key := fun wire =>
  keeps_scanFrom kept tells (wire.ahead.length + 1) 0 (List.forall_mem_nil _) wire

end Scan

theorem keeps_deleteChunks {chunks : List (List Bytes)}
    (kept : ∀ chunk ∈ chunks, respond.Maintains invariant (.del chunk)) (removed : Nat) :
    Party.Keeps respond invariant (deleteChunks chunks removed) fun _ => True := by
  induction chunks generalizing removed with
  | nil => exact Party.keeps_of_silent (fun _ => rfl) fun _ => trivial
  | cons chunk chunks ih =>
      rw [List.forall_mem_cons] at kept
      rw [deleteChunks_cons]
      have first : Party.Keeps respond invariant (Wire.query Reply.integer? (.del chunk))
          fun _ => True :=
        Wire.keeps_query kept.1 (fun _ => trivial) fun _ _ _ _ => trivial
      refine first.andThen (Wire.query_orderly _ _)
        (deleteOn_orderly (deleteChunks_orderly chunks) removed) fun said _ => ?_
      cases said with
      | error failure => exact Party.keeps_of_silent (fun _ => rfl) fun _ => trivial
      | ok count => exact ih kept.2 (removed + count.toNat)

theorem keeps_sendWrites {commands : List Command}
    (kept : ∀ command ∈ commands, respond.Maintains invariant command) :
    Party.Keeps respond invariant (sendWrites commands) fun _ => True := by
  induction commands with
  | nil => exact Party.keeps_of_silent (fun _ => rfl) fun _ => trivial
  | cons command commands ih =>
      rw [List.forall_mem_cons] at kept
      rw [sendWrites_cons]
      have first : Party.Keeps respond invariant (Wire.query success? command) fun _ => True :=
        Wire.keeps_query kept.1 (fun _ => trivial) fun _ _ _ _ => trivial
      refine first.andThen (Wire.query_orderly _ _) (writeOn_orderly (sendWrites_orderly commands))
        fun said _ => ?_
      cases said with
      | ok done => exact ih kept.2
      | error failure =>
          show Party.Keeps respond invariant
            (Party.map (fun _ => Except.error failure) (sendWrites commands)) fun _ => True
          exact (ih kept.2).map fun _ _ => trivial

end Client

end TimedCache.Remote
