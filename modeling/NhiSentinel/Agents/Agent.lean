import Mathlib.Data.List.Infix
import NhiSentinel.Agents.ToolRegistry
import NhiSentinel.Audit.Schema
import NhiSentinel.Identity.ManifestSchema
import NhiSentinel.Pep.Runs

/-!
# The agent

`BaseAgent` of `agents/base/agent.py`: the nodes of its graph as programs over the token
service, the enforcement point with its services, the audit producer and the tool
handlers. Logging is left out.
-/

namespace NhiSentinel.Agents
open NhiSentinel.Base NhiSentinel.Pep NhiSentinel.Audit NhiSentinel.Identity

/-- What a tool handler returns: a dictionary, with keys of any kind, or something else. -/
inductive ToolResult where
  | dict (entries : List (Value × Value))
  | other (v : Value)

/-- `AgentState`, `agent.py:21`. -/
structure AgentState where
  taskId : String
  environment : String
  action : String
  toolKey : String
  resourceArn : String
  resourceTags : List (String × Value)
  context : List (String × Value)
  result : ToolResult
  error : Option String
  decision : Option String

/-- `BaseAgent`, `agent.py:33`: what its graph reads, with the keys of its tool handlers. -/
structure BaseAgent where
  agentId : String
  agentType : AgentType
  registry : ToolRegistry
  sourceIp : String
  toolHandlers : List String

/-- The calls that leave a run. -/
inductive AgentCall where
  | getToken (taskId environment sourceIp : String)
  | introspect (token : String)
  | pep (c : Call)
  /-- `str` of an exception of a library. -/
  | exceptionText (cls : String)
  | uuid4
  | clock
  | publish (event : AuditEvent)
  | handler (toolKey : String) (state : AgentState)

/-- What a call is answered. A handler gives its result, or the text of its exception, and the
state that it leaves behind. -/
@[reducible] def AgentCall.Reply : AgentCall → Type
  | getToken .. => Except String String
  | introspect _ => Except String Value
  | pep c => c.Reply
  | exceptionText _ => String
  | uuid4 => String
  | clock => Nat
  | publish _ => Unit
  | handler .. => Except String ToolResult × AgentState

/-- A call together with its reply. -/
abbrev AgentEvent := Sigma AgentCall.Reply

/-- A call of the enforcement point, seen from the agent. -/
def ofPep (e : Event) : AgentEvent := ⟨.pep e.1, e.2⟩

/-- What a run works on: the enforcement point and the state of the graph. -/
structure Session where
  pep : PolicyEnforcementPoint
  state : AgentState

/-- A node of the graph. -/
abbrev Node := Py Session PyExn AgentCall AgentCall.Reply

/-- Call the environment for a reply of the given type. -/
def ask {α : Type} (c : AgentCall) (h : c.Reply = α) : Node α := do
  let reply ← Py.ask c
  pure (cast h reply)

/-- `self._token_manager.get_token`. -/
def getToken (taskId environment sourceIp : String) : Node (Except String String) :=
  ask (.getToken taskId environment sourceIp) rfl

/-- `self._token_manager.introspect`. -/
def introspect (token : String) : Node (Except String Value) := ask (.introspect token) rfl

/-- `uuid4()`. -/
def uuid4 : Node String := ask .uuid4 rfl

/-- `datetime.now(tz=timezone.utc)`. -/
def now : Node Nat := ask .clock rfl

/-- `self._audit.publish`. -/
def publish (event : AuditEvent) : Node Unit := ask (.publish event) rfl

/-- `handler(state)`. -/
def callHandler (toolKey : String) (state : AgentState) :
    Node (Except String ToolResult × AgentState) :=
  ask (.handler toolKey state) rfl

/-- Change the state of the graph. -/
def setState (f : AgentState → AgentState) : Node Unit :=
  Py.update fun s ↦ { s with state := f s.state }

/-- `state["context"][key] = v`. -/
def AgentState.setContext (state : AgentState) (key : String) (v : Value) : AgentState :=
  { state with context := Value.setMember state.context key v }

/-! ### Token -/

/-- The state with a token and its claims, `agent.py:111`. -/
def AgentState.withToken (state : AgentState) (token : String) (claims : Value) : AgentState :=
  (state.setContext "_token_claims" claims).setContext "_token" (.str token)

/-- `_node_fetch_token`, `agent.py:104`. -/
def fetchToken (agent : BaseAgent) : Node Unit := do
  let state := (← Py.read).state
  let acquired ← getToken state.taskId state.environment agent.sourceIp
  let token ← Py.ofExcept (acquired.mapError .other)
  let introspected ← introspect token
  let claims ← Py.ofExcept (introspected.mapError .other)
  setState fun state ↦ state.withToken token claims

/-! ### Policy check -/

/-- A field of a type from strings to strings. -/
def validateTags (tags : List (String × Value)) : Option (List (String × String)) :=
  tags.mapM fun kv ↦ (validateStr kv.2).map fun v ↦ (kv.1, v)

/-- The request for a tool, `agent.py:129`, or nothing where the validation library raises. -/
def actionRequest? (agent : BaseAgent) (spec : ToolSpec) (state : AgentState) :
    Option ActionRequest := do
  let tokenClaims ← match (state.context.lookup "_token_claims").getD (.obj []) with
    | .obj kvs => some kvs
    | _ => none
  let resourceTags ← validateTags state.resourceTags
  return {
    agentId := agent.agentId
    agentType := agent.agentType.value
    tokenClaims := tokenClaims
    action := spec.action
    resourceArn := state.resourceArn
    taskId := state.taskId
    environment := state.environment
    sourceIp := agent.sourceIp
    resourceTags := resourceTags
    context := state.context }

/-- `type(exc).__name__`. -/
def exceptionName : PyExn → String
  | .policyDenial .. => "PolicyDenialError"
  | .approvalRequired .. => "ApprovalRequiredError"
  | .other cls => cls

/-- `str(exc)`, with the texts of `pep/exceptions.py`. -/
def exceptionText : PyExn → Node String
  | .policyDenial action reason policyRef => pure s!"DENY [{policyRef}] — {action}: {reason}"
  | .approvalRequired action resourceArn requestId =>
    pure s!"REQUIRE_APPROVAL — {action} on {resourceArn} (request_id={requestId})"
  | .other cls => ask (.exceptionText cls) rfl

/-- `self._pep.enforce(request)` with its exception caught. -/
def tryEnforce (rt : Runtime) (request : ActionRequest) : Node (Except PyExn Unit) := fun s ↦
  ((enforce rt ⟨s.pep, request⟩).embed .pep fun _ reply ↦ reply).bind fun outcome ↦
    .done (.ok outcome.1, { s with pep := outcome.2.pep })

/-- `_node_policy_check`, `agent.py:121`. -/
def policyCheck (rt : Runtime) (agent : BaseAgent) : Node Unit := do
  let state := (← Py.read).state
  match agent.registry.get state.toolKey with
  | .error message =>
    setState fun state ↦ { state with decision := some "DENY", error := some message }
  | .ok spec =>
    match actionRequest? agent spec state with
    | none => Py.raise (.other "ValidationError")
    | some request => do
      setState fun state ↦ state.setContext "_action_request" request.dump
      match ← tryEnforce rt request with
      | .ok () => setState fun state ↦ { state with decision := some "ALLOW" }
      | .error e => do
        let text ← exceptionText e
        setState fun state ↦
          { state with decision := some (exceptionName e), error := some text }

/-! ### Audit -/

/-- `x or default` on an optional text. -/
def orElse (x : Option String) (default : String) : String :=
  match x with
  | none => default
  | some s => if s = "" then default else s

/-- A default stands in for no other text than the empty one. -/
theorem orElse_eq_iff {x : Option String} {default text : String} (hd : text ≠ default)
    (ht : text ≠ "") : orElse x default = text ↔ x = some text := by
  cases x with
  | none => simp [orElse, hd.symm]
  | some s =>
    rw [orElse]
    split
    · next hs => simp [hs, hd.symm, ht.symm]
    · simp

/-- The event of a decision, `agent.py:177`. -/
def decisionEvent (agent : BaseAgent) (state : AgentState) (eventId : String) (timestamp : Nat) :
    AuditEvent where
  eventId := eventId
  timestamp := .utc timestamp
  agentId := agent.agentId
  agentType := agent.agentType.value
  taskId := state.taskId
  action := state.action
  resourceArn := state.resourceArn
  decision := orElse state.decision "UNKNOWN"
  decisionReason := state.error
  environment := some state.environment
  sourceIp := some agent.sourceIp

/-- The decision of an event is that of the state, unless it says that there is none. -/
theorem decision_eq_iff {agent : BaseAgent} {state : AgentState} {eventId decision : String}
    {timestamp : Nat} (hu : decision ≠ "UNKNOWN") (hd : decision ≠ "") :
    (decisionEvent agent state eventId timestamp).decision = decision ↔
      state.decision = some decision :=
  orElse_eq_iff hu hd

/-- `_node_audit_decision`, `agent.py:171`. -/
def auditDecision (agent : BaseAgent) : Node Unit := do
  let state := (← Py.read).state
  let eventId ← uuid4
  let timestamp ← now
  publish (decisionEvent agent state eventId timestamp)
  setState fun state ↦ state.setContext "_decision_event_id" (.str eventId)

/-- Whether a text is empty or absent. -/
def isBlank (x : Option String) : Bool := x.all (· = "")

/-- The identifier of the decision's event as a text, `agent.py:209`. -/
def decisionEventId (rt : Runtime) (state : AgentState) : String :=
  Python.str rt ((state.context.lookup "_decision_event_id").getD (.str "unknown"))

/-- The result as a field of an event, `agent.py:220`, or nothing where the validation library
raises: a dictionary from strings, or none for anything else. -/
def ToolResult.validate? : ToolResult → Option (Option (List (String × Value)))
  | dict entries =>
    (entries.mapM fun kv ↦ (validateStr kv.1).map fun key ↦ (key, kv.2)).map some
  | other _ => some none

/-- The event of a result, `agent.py:210`. -/
def resultEvent (rt : Runtime) (agent : BaseAgent) (state : AgentState)
    (executionResult : Option (List (String × Value))) (eventId : String) (timestamp : Nat) :
    AuditEvent where
  eventId := eventId
  timestamp := .utc timestamp
  agentId := agent.agentId
  agentType := agent.agentType.value
  taskId := state.taskId
  action := state.action
  resourceArn := state.resourceArn
  decision := if isBlank state.error then "EXECUTED" else "EXECUTION_FAILED"
  decisionReason := some s!"post-execution update for {decisionEventId rt state}"
  environment := some state.environment
  sourceIp := some agent.sourceIp
  executionResult := executionResult
  executionError := state.error

/-- `_node_audit_result`, `agent.py:201`. -/
def auditResult (rt : Runtime) (agent : BaseAgent) : Node Unit := do
  let state := (← Py.read).state
  let eventId ← uuid4
  let timestamp ← now
  match state.result.validate? with
  | none => Py.raise (.other "ValidationError")
  | some executionResult =>
    publish (resultEvent rt agent state executionResult eventId timestamp)

/-! ### Execution -/

/-- `_node_execute_tool`, `agent.py:159`. -/
def executeTool (agent : BaseAgent) : Node Unit := do
  let state := (← Py.read).state
  if state.toolKey ∈ agent.toolHandlers then do
    let reply ← callHandler state.toolKey state
    match reply.1 with
    | .ok result => setState fun _ ↦ { reply.2 with result := result }
    | .error text => setState fun _ ↦ { reply.2 with error := some text }
  else
    setState fun state ↦
      { state with error := some s!"No handler registered for tool '{state.toolKey}'" }

/-- The branches of the graph after a decision. -/
inductive Route where
  | allowed
  | approval
  | denied
  deriving DecidableEq

/-- `_route_after_policy`, `agent.py:152`. -/
def routeAfterPolicy (state : AgentState) : Route :=
  if state.decision = some "ALLOW" then .allowed
  else if "ApprovalRequired".toList <:+: (state.decision.getD "").toList then .approval
  else .denied

/-! ### Graph -/

/-- `_build_graph`, `agent.py:73`: the nodes in the order of the edges. The nodes for loading a
task and for errors only log. -/
def invoke (rt : Runtime) (agent : BaseAgent) : Node Unit := do
  fetchToken agent
  policyCheck rt agent
  auditDecision agent
  match routeAfterPolicy (← Py.read).state with
  | .allowed => do
    executeTool agent
    auditResult rt agent
  | .approval | .denied => pure ()

/-- The arguments of a run. -/
structure RunArgs where
  toolKey : String
  resourceArn : String
  taskId : String
  environment : String
  resourceTags : List (String × Value) := []
  context : List (String × Value) := []

/-- The state that a run begins with, `agent.py:254`. -/
def RunArgs.initialState (args : RunArgs) : AgentState where
  taskId := args.taskId
  environment := args.environment
  action := args.toolKey
  toolKey := args.toolKey
  resourceArn := args.resourceArn
  resourceTags := args.resourceTags
  context := args.context
  result := .other .null
  error := none
  decision := none

/-- `run`, `agent.py:245`, with the enforcement point as it is before. -/
def run (rt : Runtime) (agent : BaseAgent) (pep : PolicyEnforcementPoint) (args : RunArgs) :
    Prog AgentCall AgentCall.Reply (Except PyExn Unit × Session) :=
  invoke rt agent ⟨pep, args.initialState⟩

end NhiSentinel.Agents
