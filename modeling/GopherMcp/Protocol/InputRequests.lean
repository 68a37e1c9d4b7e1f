import GopherMcp.Json.Value

/-!
# Asking a client for input

A server that needs something of its client answers with the requests it has, each under a key the
answer comes back under.
-/

namespace GopherMcp

structure InputRequest where
  method : Bytes
  params : JsonValue

/-- `std::map<std::string, InputRequest>`. -/
abbrev InputRequests := OrdMap Bytes InputRequest

structure NeedsInput where
  requests : InputRequests
  requestState : Option Bytes

def kInputRequestsField : Bytes := ascii "inputRequests"

def renderInputRequest (request : InputRequest) : JsonValue :=
  (JsonValue.emptyObject.set (ascii "method") (.string request.method)).set (ascii "params")
    (if request.params.isObject then request.params else .emptyObject)

def renderInputRequired (needed : NeedsInput) : JsonValue :=
  let result := JsonValue.emptyObject.set (ascii "resultType") (.string (ascii "input_required"))
  let result :=
    if needed.requests.entries.isEmpty then result
    else
      result.set kInputRequestsField (needed.requests.entries.foldl
        (fun requests entry => requests.set entry.1 (renderInputRequest entry.2)) .emptyObject)
  match needed.requestState with
  | some requestState => result.set (ascii "requestState") (.string requestState)
  | none => result

end GopherMcp
