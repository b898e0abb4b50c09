import DigDns.Codecs
import DigDns.Config
import DigDns.Support.Interaction
import DigDns.Support.Json

/-!
# The node

`node.rs` and the `NodeClient` trait of `transport.rs`: the shapes of the
requests and answers, and the calls that the gateway can make of a node.  A node
may answer anything, and may answer the same call differently the next time.
-/

namespace DigDns

open Rust Serde

/-- Errors from the read contract of the node. -/
inductive NodeError
  | rpc (code : Int) (message : Str) (dataCode : Option Str)
  | malformed (message : Str)
  | transport (message : Str)
deriving DecidableEq

/-- `Display` of a `NodeError`. -/
def NodeError.message : NodeError → Str
  | rpc code message _ =>
      "node JSON-RPC error ".toList ++ fmtInt code ++ ": ".toList ++ message
  | malformed message => "malformed node response: ".toList ++ message
  | transport message => "node transport error: ".toList ++ message

/-- `NodeError::is_not_found` -/
def NodeError.isNotFound : NodeError → Bool
  | rpc code _ dataCode =>
      code = -32004 || code = -32005 ||
        dataCode = some "RESOURCE_UNAVAILABLE".toList || dataCode = some "ROOT_NOT_ANCHORED".toList
  | malformed _ => false
  | transport _ => false

/-- A resource as the client puts it together from its windows. -/
structure FetchedContent where
  ciphertext : List UInt8
  rootHex : Str
  inclusionProofB64 : Str
  chunkLens : List UInt64
deriving DecidableEq

/-! ## Requests and answers -/

/-- `DIG_LOCAL_BASE` -/
def digLocalBase : Str := "http://dig.local".toList

/-- `RPC_DIG_NET_BASE` -/
def rpcDigNetBase : Str := "https://rpc.dig.net".toList

/-- `DEFAULT_LOCAL_NODE_PORT` -/
def defaultLocalNodePort : UInt16 := 9778

/-- The base of the node on this machine. -/
def localhostBase : Str := "http://localhost:".toList ++ fmtNat defaultLocalNodePort.toNat

/-- `candidate_bases` -/
def candidateBases (cfg : Config) : List Str :=
  match cfg.nodeUrl with
  | some url => [url.rdropWhile (· == '/')]
  | none => [digLocalBase, localhostBase, rpcDigNetBase]

/-- `build_anchored_root_params` -/
def buildAnchoredRootParams (storeHex : Str) : Value :=
  .object [("store_id".toList, .string storeHex)]

/-- `build_content_params` -/
def buildContentParams (storeHex retrievalKeyHex : Str) (rootHex : Option Str) (offset : UInt64) :
    Value :=
  .object ([
    ("store_id".toList, .string storeHex),
    ("retrieval_key".toList, .string retrievalKeyHex),
    ("offset".toList, .number offset.toNat)] ++
    (rootHex.map fun root => ("root".toList, Value.string root)).toList)

/-- `parse_rpc_result` -/
def parseRpcResult (response : Value) : Except NodeError Value :=
  match response.get "error".toList with
  | some err =>
      .error (.rpc
        (((err.get "code".toList).bind Value.asI64).getD 0)
        (((err.get "message".toList).bind Value.asStr).getD [])
        (((err.get "data".toList).bind (Value.get "code".toList)).bind Value.asStr))
  | none =>
      okOr (response.get "result".toList)
        (.malformed "response has neither result nor error".toList)

/-- `parse_anchored_root` -/
def parseAnchoredRoot (result : Value) : Except NodeError Str := do
  let root ← okOr ((result.get "root".toList).bind Value.asStr)
    (.malformed "anchored-root result missing 'root'".toList)
  if byteLen root ≠ 64 ∨ ¬(utf8 root).all fun b => Hex.isAsciiHexdigit (Char.ofNat b.toNat) then
    .error (.malformed ("anchored root is not 64-hex: ".toList ++ root))
  else .ok root

/-- Whether a window says that it is the last one. -/
def isComplete (window : Value) : Bool :=
  ((window.get "complete".toList).bind Value.asBool).getD false

/-- The `chunk_lens` of the first window. -/
def parseChunkLens (first : Value) : Except NodeError (List UInt64) :=
  match first.get "chunk_lens".toList with
  | some (.array items) =>
      items.mapM fun v => okOr v.asU64 (.malformed "chunk_lens entry is not a u64".toList)
  | some _ => .error (.malformed "chunk_lens is not an array".toList)
  | none => .error (.malformed "first window missing chunk_lens".toList)

/-- `assemble_windows` on a window that is incomplete in the last place. -/
def finalNotComplete : NodeError := .malformed "final window is not complete".toList

/-- `assemble_windows` on a window that is complete in an earlier place. -/
def nonFinalComplete : NodeError := .malformed "a non-final window is marked complete".toList

/-- `assemble_windows` on nothing. -/
def noContentWindows : NodeError := .malformed "no content windows".toList

/-- One round of the loop of `assemble_windows`. -/
def assembleWindow (codecs : Codecs) (lastIndex : Nat) (ciphertext : List UInt8)
    (w : Value × Nat) : Except NodeError (List UInt8) := do
  let ctB64 ← okOr ((w.1.get "ciphertext".toList).bind Value.asStr)
    (.malformed "window missing ciphertext".toList)
  let bytes ← okOr (codecs.base64Decode (utf8 ctB64))
    (.malformed "ciphertext is not valid base64".toList)
  if w.2 = lastIndex ∧ isComplete w.1 = false then .error finalNotComplete
  else if w.2 ≠ lastIndex ∧ isComplete w.1 = true then .error nonFinalComplete
  else .ok (ciphertext ++ bytes)

/-- `assemble_windows` -/
def assembleWindows (codecs : Codecs) (windows : List Value) : Except NodeError FetchedContent := do
  let first ← okOr windows.head? noContentWindows
  let inclusionProofB64 ← okOr ((first.get "inclusion_proof".toList).bind Value.asStr)
    (.malformed "first window missing inclusion_proof".toList)
  let chunkLens ← parseChunkLens first
  let rootHex ← okOr ((first.get "root".toList).bind Value.asStr)
    (.malformed "window missing root".toList)
  let ciphertext ← windows.zipIdx.foldlM (assembleWindow codecs (windows.length - 1)) []
  .ok { ciphertext, rootHex, inclusionProofB64, chunkLens }

/-! ## The client that the gateway holds -/

/-- The methods of `NodeClient`. -/
inductive NodeCall
  | baseUrl
  | healthy
  | getAnchoredRoot (storeHex : Str)
  | getContent (storeHex retrievalKeyHex : Str) (rootHex : Option Str)
deriving DecidableEq

/-- What each method returns. -/
abbrev NodeAnswer : NodeCall → Type
  | .baseUrl => Str
  | .healthy => Bool
  | .getAnchoredRoot _ => Except NodeError Str
  | .getContent _ _ _ => Except NodeError FetchedContent

instance : ∀ q : NodeCall, Nonempty (NodeAnswer q)
  | .baseUrl => ⟨([] : Str)⟩
  | .healthy => ⟨false⟩
  | .getAnchoredRoot _ => ⟨.error (.transport [])⟩
  | .getContent _ _ _ => ⟨.error (.transport [])⟩

/-- A program that talks to a node. -/
abbrev NodeProg := Interaction.Prog NodeAnswer

/-- A call of a node and its answer. -/
abbrev NodeEvent := Interaction.Event NodeAnswer

/-- A node: an answer to every call, from everything that went before. -/
abbrev NodeBehaviour := Interaction.Behaviour NodeAnswer

namespace NodeClient

/-- `base_url` -/
def baseUrl : NodeProg Str := .ask .baseUrl .ret

/-- `healthy` -/
def healthy : NodeProg Bool := .ask .healthy .ret

/-- `get_anchored_root` -/
def getAnchoredRoot (storeHex : Str) : NodeProg (Except NodeError Str) :=
  .ask (.getAnchoredRoot storeHex) .ret

/-- `get_content` -/
def getContent (storeHex retrievalKeyHex : Str) (rootHex : Option Str) :
    NodeProg (Except NodeError FetchedContent) :=
  .ask (.getContent storeHex retrievalKeyHex rootHex) .ret

end NodeClient

end DigDns
