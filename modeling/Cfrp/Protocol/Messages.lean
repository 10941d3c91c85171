import Mathlib.Init

/-!
# Control messages

The message structs of `protocol.h`. A `std::string` is a `String` with one
character for each byte, here and everywhere else.
-/

namespace Cfrp

abbrev Byte := UInt8

namespace Protocol

structure LoginMessage where
  token : String
  name : String
  deriving DecidableEq

structure LoginRespMessage where
  status : String
  name : String := ""
  message : String := ""
  deriving DecidableEq

structure RegisterProxyMessage where
  name : String
  type : String
  remotePort : UInt16
  customDomains : List String
  bandwidthLimit : Int
  deriving DecidableEq

structure RegisterProxyRespMessage where
  status : String
  name : String
  message : String := ""
  deriving DecidableEq

structure NewUserConnMessage where
  proxyName : String
  ticket : String
  deriving DecidableEq

structure UnregisterProxyMessage where
  name : String
  deriving DecidableEq

/-- A control message with its body decoded. -/
inductive Message where
  | login (m : LoginMessage)
  | loginResp (m : LoginRespMessage)
  | registerProxy (m : RegisterProxyMessage)
  | registerProxyResp (m : RegisterProxyRespMessage)
  | newUserConn (m : NewUserConnMessage)
  | unregisterProxy (m : UnregisterProxyMessage)
  /-- A type no handler has a case for. -/
  | other
  /-- A body whose decoder throws. -/
  | malformed
  deriving DecidableEq

end Protocol

end Cfrp
