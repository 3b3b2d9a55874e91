import TimedCache.Proofs.Deployment.Interlude

/-!
# Operations that a remote backend refuses

A remote backend refuses an operation before it sends anything, if it is closed or if the context of the
caller is over.  Nothing changes then: no command is sent, and nothing is counted.  Closing is final,
whatever happens afterwards.

**Batches without items** are not refused.  They need no command, and so they are answered with success
before the backend looks at itself or at the context (`Operation.isEmptyBatch`).  Backends in the process
refuse them as all other operations.

## Main Results

* `Deployment.refusing` — what is refused, and how
* `Deployment.getMany_nil_of_closed` — an empty batch on a closed backend
-/

namespace TimedCache

/-- A batch of reads or writes without items. -/
def Operation.isEmptyBatch : Operation → Bool
  | .getMany keys => keys.isEmpty
  | .setMany entries _ => entries.size = 0
  | _ => false

namespace Remote.Client

variable {client : Client} {op : Operation}

/-- Only closing and empty batches need no command. -/
theorem withoutCommand?_eq_none (data : op.isData = true) (items : op.isEmptyBatch = false) :
    withoutCommand? op = none := by
  cases op with
  | close => cases data
  | getMany keys =>
      cases keys with
      | nil => cases items
      | cons key keys => rfl
  | setMany entries ttl => exact if_neg (of_decide_eq_false items)
  | _ => rfl

theorem exists_withoutCommand? (empty : op.isEmptyBatch = true) :
    op.isData = true ∧ ∃ value, withoutCommand? op = some value := by
  cases op with
  | getMany keys =>
      cases keys with
      | nil => exact ⟨rfl, _, rfl⟩
      | cons key keys => cases empty
  | setMany entries ttl => exact ⟨rfl, (), if_pos (of_decide_eq_true empty)⟩
  | _ => cases empty

/-- Before a command is sent, a reason not to send it is told, and nothing changes. -/
theorem perform_of_refusal {standing : Standing} {failure : CacheError}
    (refused : client.refusal? standing = some failure) (data : op.isData = true)
    (items : op.isEmptyBatch = false) (wire : Wire) :
    client.perform standing wire op = (.error failure, client, wire) := by
  rw [perform, withoutCommand?_eq_none data items, refused]

/-- An empty batch succeeds, and nothing changes. -/
theorem exists_perform_of_isEmptyBatch (empty : op.isEmptyBatch = true) (standing : Standing)
    (wire : Wire) : ∃ value, client.perform standing wire op = (.ok value, client, wire) := by
  obtain ⟨data, value, answered⟩ := exists_withoutCommand? empty
  refine ⟨value, ?_⟩
  rw [perform, answered, data]
  rfl

/-- What is closed stays closed. -/
theorem isOpen_perform_of_closed (closed : client.isOpen = false) (standing : Standing) (wire : Wire)
    (op : Operation) : (client.perform standing wire op).2.1.isOpen = false := by
  have refused : client.refusal? standing = some .closed := by
    rw [refusal?, closed]
    rfl
  unfold perform
  cases withoutCommand? op with
  | some value =>
      dsimp only
      split
      · exact closed
      · rfl
  | none =>
      rw [refused]
      exact closed

end Remote.Client

namespace Deployment

variable {deployment : Deployment} {backend : Nat} {client : Remote.Client}

/-- An operation of a remote backend is one of its client. -/
theorem perform_onServer (engine : deployment.engines[backend]? = some (.onServer client))
    (context : Context) (op : Operation) :
    let performed := client.perform (deployment.standing context) deployment.wire op
    deployment.perform backend context op =
      (performed.1, { deployment with
        engines := deployment.engines.setIfInBounds backend (.onServer performed.2.1)
        wire := performed.2.2 }) := by
  intro performed
  rw [perform, engine]
  rfl

/-- Where the client and the wire do not change, nothing changes. -/
theorem perform_onServer_of_same (engine : deployment.engines[backend]? = some (.onServer client))
    {context : Context} {op : Operation} {answer : op.Answer}
    (same : client.perform (deployment.standing context) deployment.wire op =
      (answer, client, deployment.wire)) :
    deployment.perform backend context op = (answer, deployment) := by
  have kept : deployment.engines.setIfInBounds backend (.onServer client) = deployment.engines := by
    obtain ⟨bound, there⟩ := Array.getElem?_eq_some_iff.mp engine
    rw [← there, Array.setIfInBounds_def, dif_pos bound, Array.set_getElem_self]
  rw [perform_onServer engine, same, kept]

/-! ### Closing -/

/-- A backend on a server that is closed. -/
def IsShut (deployment : Deployment) (backend : Nat) : Prop :=
  ∃ client, deployment.engines[backend]? = some (.onServer client) ∧ client.isOpen = false

theorem isShut_close (engine : deployment.engines[backend]? = some (.onServer client))
    (context : Context) : (deployment.perform backend context .close).2.IsShut backend := by
  obtain ⟨bound, -⟩ := Array.getElem?_eq_some_iff.mp engine
  rw [perform_onServer engine]
  exact ⟨{ client with isOpen := false }, Array.getElem?_setIfInBounds_self_of_lt bound, rfl⟩

/-- **Closing is final**: no incident opens a backend again. -/
theorem IsShut.happen (isShut : deployment.IsShut backend) (incident : Incident) :
    (deployment.happen incident).IsShut backend := by
  obtain ⟨client, engine, closed⟩ := isShut
  have stays : ∀ later, (deployment.advanceTo later).IsShut backend := by
    intro later
    refine ⟨client, ?_, closed⟩
    rw [engines_advanceTo, engine]
    rfl
  cases incident with
  | ask call =>
      cases call with
      | perform other context op =>
          by_cases own : other = backend
          · subst own
            obtain ⟨bound, -⟩ := Array.getElem?_eq_some_iff.mp engine
            show (deployment.perform other context op).2.IsShut other
            rw [perform_onServer engine]
            exact ⟨_, Array.getElem?_setIfInBounds_self_of_lt bound,
              Remote.Client.isOpen_perform_of_closed closed _ _ op⟩
          · exact ⟨client, (engines_perform_of_ne own context op).trans engine, closed⟩
      | wallClock | limitedContext _ | ticket _ => exact ⟨client, engine, closed⟩
      | pause duration => exact stays _
  | advance duration => exact stays _
  | sweep other =>
      refine ⟨client, ?_, closed⟩
      show (deployment.engines.modify other _)[backend]? = _
      rw [Array.getElem?_modify, engine]
      split <;> rfl
  | cancel token => exact ⟨client, engine, closed⟩

theorem IsShut.reach (isShut : deployment.IsShut backend) (incidents : List Incident) :
    (deployment.reach incidents).IsShut backend :=
  reach_keeps (P := fun reached => reached.IsShut backend)
    (fun incident _ {_} isShut => isShut.happen incident) isShut

/-! ### What is refused -/

/-- **What a remote backend refuses**, and how.  A refusal leaves the deployment as it is: the commands
that were sent, the counts of the backend, and all else. -/
structure Refusing (deployment : Deployment) (backend : Nat) (client : Remote.Client) : Prop where
  /-- Once the backend was closed, it says so, whatever has happened since and whatever the context. -/
  closed : ∀ closing incidents context (op : Operation), op.isData = true →
    op.isEmptyBatch = false →
      let later := (deployment.perform backend closing .close).2.reach incidents
      later.perform backend context op = (.error .closed, later)
  /-- On an open backend, cancellation comes first. -/
  cancelled : ∀ context (op : Operation), client.isOpen = true → op.isData = true →
    op.isEmptyBatch = false → deployment.tokens.hasCancelled context = true →
      deployment.perform backend context op = (.error .canceled, deployment)
  /-- Next comes the deadline, which is reached as soon as the clock shows it. -/
  deadline : ∀ context (op : Operation) deadline, client.isOpen = true → op.isData = true →
    op.isEmptyBatch = false → deployment.tokens.hasCancelled context = false →
      context.deadline = some deadline → deadline ≤ deployment.elapsed →
        deployment.perform backend context op = (.error .deadlineExceeded, deployment)
  /-- A batch without items is never refused. -/
  empty : ∀ context (op : Operation), op.isEmptyBatch = true →
    ∃ value, deployment.perform backend context op = (.ok value, deployment)

/-- **Remote backends refuse** all operations but empty batches, when they are closed or the context is
over. -/
theorem refusing (deployment : Deployment) {backend : Nat} {client : Remote.Client}
    (engine : deployment.engines[backend]? = some (.onServer client)) :
    deployment.Refusing backend client where
  closed := by
    intro closing incidents context op data items later
    obtain ⟨client, engine, closed⟩ := (isShut_close engine closing).reach incidents
    have refused : client.refusal? (later.standing context) = some .closed := by
      rw [Remote.Client.refusal?, closed]
      rfl
    exact perform_onServer_of_same engine
      (Remote.Client.perform_of_refusal refused data items later.wire)
  cancelled := by
    intro context op isOpen data items cancelled
    have refused : client.refusal? (deployment.standing context) = some .canceled := by
      rw [Remote.Client.refusal?, isOpen, standing, TokenForest.standing_of_cancelled cancelled]
      rfl
    exact perform_onServer_of_same engine
      (Remote.Client.perform_of_refusal refused data items deployment.wire)
  deadline := by
    intro context op deadline isOpen data items uncancelled ends reached
    have refused : client.refusal? (deployment.standing context) = some .deadlineExceeded := by
      rw [Remote.Client.refusal?, isOpen, standing,
        TokenForest.standing_of_deadline uncancelled ends reached]
      rfl
    exact perform_onServer_of_same engine
      (Remote.Client.perform_of_refusal refused data items deployment.wire)
  empty := by
    intro context op empty
    obtain ⟨value, answered⟩ := client.exists_perform_of_isEmptyBatch empty
      (deployment.standing context) deployment.wire
    exact ⟨value, perform_onServer_of_same engine answered⟩

/-- A deployment with one remote backend. -/
def sampleOnServer : Backend × Deployment :=
  (Deployment.start 1700000000000).addRemote ⟨.standard, utf8 "127.0.0.1:6379", 0, .zero, true⟩

/-- After the backend was closed, and after a second, it refuses to count. -/
theorem refusing_sampleOnServer :
    let later := (sampleOnServer.2.perform 0 .background .close).2.reach [.advance (.ofSecs 1)]
    later.perform 0 .background (.increment (utf8 "n") 1) = (.error .closed, later) :=
  (sampleOnServer.2.refusing rfl).closed .background [.advance (.ofSecs 1)] .background _ rfl rfl

/-- A closed backend answers a batch of no reads and one of no writes, and refuses all else. -/
theorem getMany_nil_of_closed :
    let closed := (sampleOnServer.2.perform 0 .background .close).2
    (closed.perform 0 .background (.getMany [])).1 = .ok .empty ∧
      (closed.perform 0 .background (.setMany .empty .zero)).1 = .ok () ∧
      (closed.perform 0 .background (.get (utf8 "k"))).1 = .error .closed :=
  ⟨rfl, rfl, rfl⟩

end Deployment

end TimedCache
