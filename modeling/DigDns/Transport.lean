import DigDns.Node

/-!
# The client of the node

`ReqwestNodeClient` of `transport.rs`: the ladder of bases it chooses from, the
JSON-RPC call, and the loop that pages through `dig.getContent`.  The network
may answer any request in any way.
-/

namespace DigDns

open Rust Serde Interaction

/-- What the client asks of the network. -/
inductive HttpCall
  | get (url : Str)
  | post (url : Str) (body : Value)

/-- A response: its status and how that is printed, and its body read as JSON. -/
structure HttpResponse where
  status : Nat
  statusText : Str
  json : Except Str Value

/-- A probe only looks whether a response came. -/
abbrev HttpAnswer : HttpCall → Type
  | .get _ => Bool
  | .post _ _ => Except Str HttpResponse

/-- A program that talks to the network. -/
abbrev HttpProg := Prog HttpAnswer

/-- A request and its answer. -/
abbrev HttpEvent := Event HttpAnswer

/-- A network: an answer to every request, from everything that went before. -/
abbrev HttpBehaviour := Behaviour HttpAnswer

namespace ReqwestNodeClient

/-! ## The ladder -/

/-- `probe` -/
def probe (base : Str) : HttpProg Bool := .ask (.get (base ++ "/health".toList)) .ret

/-- The loop of `resolve`: the last base is not probed. -/
def firstAnswering : List Str → HttpProg (Except NodeError Str)
  | [] => .ret (.error (.transport "no node endpoint candidates".toList))
  | [base] => .ret (.ok base)
  | base :: bases => do
      if ← probe base then .ret (.ok base) else firstAnswering bases

/-- `resolve`, where `client` is what building the HTTP client gave; it returns
the base that the client is bound to. -/
def resolve (client : Except NodeError Unit) (config : Config) : HttpProg (Except NodeError Str) :=
  match client with
  | .error e => .ret (.error e)
  | .ok () => firstAnswering (candidateBases config)

/-! ## One call -/

/-- The body of a JSON-RPC request. -/
def rpcBody (method : Str) (params : Value) : Value :=
  .object [("jsonrpc".toList, .string "2.0".toList), ("id".toList, .number 1),
    ("method".toList, .string method), ("params".toList, params)]

/-- What a call makes of the answer to its request. -/
def readResponse : Except Str HttpResponse → Except NodeError Value
  | .error e => .error (.transport e)
  | .ok response =>
      if ¬(200 ≤ response.status ∧ response.status < 300) then
        .error (.transport ("HTTP ".toList ++ response.statusText))
      else
        match response.json with
        | .error e => .error (.transport e)
        | .ok value => parseRpcResult value

/-- `call` -/
def call (base method : Str) (params : Value) : HttpProg (Except NodeError Value) :=
  .ask (.post (base ++ "/".toList) (rpcBody method params)) fun r => .ret (readResponse r)

/-- `get_anchored_root` -/
def getAnchoredRoot (base storeHex : Str) : HttpProg (Except NodeError Str) := do
  let result ← call base "dig.getAnchoredRoot".toList (buildAnchoredRootParams storeHex)
  .ret (result >>= parseAnchoredRoot)

/-! ## Paging -/

/-- `MAX_CONTENT_WINDOWS` -/
def maxContentWindows : Nat := 100000

/-- The offset that a window gives for the next one. -/
def nextOffset (window : Value) : Option UInt64 :=
  (window.get "next_offset".toList).bind Value.asU64

/-- The `dig.getContent` call for the window at an offset. -/
def contentCall (base storeHex retrievalKeyHex : Str) (rootHex : Option Str) (offset : UInt64) :
    HttpProg (Except NodeError Value) :=
  call base "dig.getContent".toList (buildContentParams storeHex retrievalKeyHex rootHex offset)

/-- The loop of `get_content`, with the windows it has so far. -/
def contentWindows (base storeHex retrievalKeyHex : Str) (rootHex : Option Str)
    (windows : List Value) (offset : UInt64) : HttpProg (Except NodeError (List Value)) :=
  if _hcap : maxContentWindows ≤ windows.length then
    .ret (.error (.malformed "content never completed within the window cap".toList))
  else do
    match ← contentCall base storeHex retrievalKeyHex rootHex offset with
    | .error e => .ret (.error e)
    | .ok result =>
        if isComplete result then .ret (.ok (windows ++ [result]))
        else
          match nextOffset result with
          | some next =>
              if offset < next then
                contentWindows base storeHex retrievalKeyHex rootHex (windows ++ [result]) next
              else
                .ret (.error (.malformed
                  "incomplete window without an advancing next_offset".toList))
          | none =>
              .ret (.error (.malformed
                "incomplete window without an advancing next_offset".toList))
termination_by maxContentWindows - windows.length
decreasing_by
  rw [List.length_append, List.length_singleton]
  omega

/-- `get_content` -/
def getContent (codecs : Codecs) (base storeHex retrievalKeyHex : Str) (rootHex : Option Str) :
    HttpProg (Except NodeError FetchedContent) := do
  let windows ← contentWindows base storeHex retrievalKeyHex rootHex [] 0
  .ret (windows >>= assembleWindows codecs)

end ReqwestNodeClient

end DigDns
