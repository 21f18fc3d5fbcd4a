import AciGateway.Lib.Octets

/-! What the backends of upstream providers share. -/
namespace AciGateway

open Octets

inductive UpstreamError where
  | routing (message : String)
  | invalidRequest (message : String)
  | transport (message : String)
  | responseTooLarge
  | timeout (message : String)
  | channelBindingMismatch (message : String)
  | upstream (status : UInt16)
  deriving DecidableEq

structure PreparedUpstreamRequest where
  body : Bytes
  path : Option String

end AciGateway
