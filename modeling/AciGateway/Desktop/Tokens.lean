import Mathlib.Data.List.Basic

/-! The agents of the desktop application, the endpoints they use, and their tokens. -/
namespace AciGateway.Desktop

inductive Surface where
  | chatCompletions
  | messages
  | responses
  | systemOne
  | images
  | audioTranscriptions
  deriving DecidableEq

inductive Agent where
  | codex
  | claudeCode
  | openCode
  | pi
  | hermes
  | openClaw
  | ohMyPi
  | dsh
  deriving DecidableEq

namespace Agent

def id : Agent → String
  | codex => "codex"
  | claudeCode => "claude-code"
  | openCode => "opencode"
  | pi => "pi"
  | hermes => "hermes"
  | openClaw => "openclaw"
  | ohMyPi => "oh-my-pi"
  | dsh => "dsh"

def all : List Agent := [claudeCode, codex, dsh, hermes, pi, ohMyPi, openCode, openClaw]

def fromId (id : String) : Option Agent := all.find? (fun agent => agent.id = id)

def surface : Agent → Surface
  | codex => .responses
  | claudeCode => .messages
  | openCode | pi | hermes | openClaw | ohMyPi | dsh => .chatCompletions

end Agent

def localToolsAgent : String := "local-tools"

/-- The surface an agent's own paths belong to. -/
def pathSurface (path : String) : Option Surface :=
  if path = "/v1/responses" ∨ path = "/v1/responses/compact" then some .responses
  else if path = "/v1/messages" ∨ path = "/v1/messages/count_tokens" then some .messages
  else if path = "/v1/chat/completions" then some .chatCompletions
  else none

/-- Which local paths a token of an agent may call. -/
def agentAllows (agent path : String) : Bool :=
  if agent = localToolsAgent then
    path ∈ ["/v1/models", "/v1/responses", "/v1/responses/compact", "/v1/messages",
      "/v1/messages/count_tokens", "/v1/chat/completions", "/v1/systemone",
      "/v1/images/generations", "/v1/audio/transcriptions"]
  else
    match Agent.fromId agent with
    | none => false
    | some agent => path = "/v1/models" || pathSurface path = some agent.surface

/-- Issued tokens, each with the agent it authenticates. -/
structure TokenSet where
  entries : List (String × String)
  unique : (entries.map Prod.fst).Nodup
  deriving DecidableEq

namespace TokenSet

def empty : TokenSet := ⟨[], List.nodup_nil⟩

def agentFor (set : TokenSet) (token : String) : Option String := set.entries.lookup token

end TokenSet

end AciGateway.Desktop
