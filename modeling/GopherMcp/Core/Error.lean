import GopherMcp.Core.Bytes

/-!
# Errors

An error is a JSON-RPC code and a message; what comes with it as data plays no part here.
-/

namespace GopherMcp

structure Error where
  code : Int
  message : Bytes
  deriving DecidableEq

def INVALID_PARAMS : Int := -32602
def INTERNAL_ERROR : Int := -32603

end GopherMcp
