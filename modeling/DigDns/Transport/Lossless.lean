import DigDns.Transport

/-!
# Lossless paging

An honest node cuts a resource into windows as it likes, and may decide on each
cut when it is asked.  The windows that the loop of `get_content` collects cover
the resource, and `assemble_windows` puts windows that cover it together again.
-/

namespace DigDns

open Rust Serde Interaction

namespace ReqwestNodeClient

/-- A resource as a node holds it, and the base64 that the node writes. -/
structure Resource where
  ciphertext : List UInt8
  proof : Str
  chunkLens : List UInt64
  root : Str
  encode : List UInt8 → Str

/-- What `get_content` should return for it. -/
def Resource.fetched (res : Resource) : FetchedContent where
  ciphertext := res.ciphertext
  rootHex := res.root
  inclusionProofB64 := res.proof
  chunkLens := res.chunkLens

/-- A window of `n` bytes from an offset on: complete when it reaches the end, else with the
offset behind it; only the first window has the proof and the chunk lengths. -/
structure IsWindow (res : Resource) (offset n : Nat) (w : Value) : Prop where
  size : 1 ≤ n ∨ res.ciphertext = []
  bound : offset + n ≤ res.ciphertext.length
  ciphertext : w.get "ciphertext".toList =
    some (.string (res.encode ((res.ciphertext.drop offset).take n)))
  complete : w.get "complete".toList = some (.bool (offset + n = res.ciphertext.length))
  next : offset + n < res.ciphertext.length →
    w.get "next_offset".toList = some (.number ((offset + n : Nat) : Int))
  first : offset = 0 →
    w.get "root".toList = some (.string res.root) ∧
    w.get "inclusion_proof".toList = some (.string res.proof) ∧
    w.get "chunk_lens".toList =
      some (.array (res.chunkLens.map fun len => .number ((len.toNat : Nat) : Int)))
  later : offset ≠ 0 →
    w.get "inclusion_proof".toList = none ∧ w.get "chunk_lens".toList = none

/-! ## Windows that cover the rest of a resource -/

/-- `Covers res offset ws`: the windows tile the resource from an offset to its end. -/
inductive Covers (res : Resource) : Nat → List Value → Prop
  | last {offset n : Nat} {w : Value} (hw : IsWindow res offset n w)
      (hend : offset + n = res.ciphertext.length) : Covers res offset [w]
  | more {offset n : Nat} {w : Value} {ws : List Value} (hw : IsWindow res offset n w)
      (hlt : offset + n < res.ciphertext.length) (hrest : Covers res (offset + n) ws) :
      Covers res offset (w :: ws)

variable {codecs : Codecs} {res : Resource}

theorem IsWindow.isComplete_eq {offset n : Nat} {w : Value} (hw : IsWindow res offset n w) :
    isComplete w = decide (offset + n = res.ciphertext.length) := by
  rw [isComplete, hw.complete]
  rfl

theorem Covers.ne_nil {offset : Nat} {ws : List Value} (h : Covers res offset ws) : ws ≠ [] := by
  cases h with
  | last _ _ => exact List.cons_ne_nil _ _
  | more _ _ _ => exact List.cons_ne_nil _ _

theorem mapM_asU64 (e : NodeError) (lens : List UInt64) :
    (lens.map fun len => Value.number ((len.toNat : Nat) : Int)).mapM
      (fun v => okOr v.asU64 e) = .ok lens := by
  induction lens with
  | nil => rfl
  | cons len lens ih =>
      rw [List.map_cons, List.mapM_cons, Value.asU64_number, ih]
      rfl

section Assemble

variable (hbase64 : ∀ bytes, codecs.base64Decode (utf8 (res.encode bytes)) = some bytes)
include hbase64

/-- A round of the loop appends its piece, when only the last window reaches the end. -/
theorem assembleWindow_of_isWindow {offset n lastIndex i : Nat} {w : Value} (acc : List UInt8)
    (hw : IsWindow res offset n w)
    (hlast : i = lastIndex ↔ offset + n = res.ciphertext.length) :
    assembleWindow codecs lastIndex acc (w, i) =
      .ok (acc ++ (res.ciphertext.drop offset).take n) := by
  have hflag := hw.isComplete_eq
  have hpiece : (w.get "ciphertext".toList).bind Value.asStr =
      some (res.encode ((res.ciphertext.drop offset).take n)) := by
    rw [hw.ciphertext]
    rfl
  unfold assembleWindow
  rw [hpiece]
  simp only [okOr, bind, Except.bind, hbase64, hflag, decide_eq_false_iff_not, decide_eq_true_eq]
  rw [if_neg, if_neg]
  · exact fun h => h.1 (hlast.mpr h.2)
  · exact fun h => h.2 (hlast.mp h.1)

/-- Windows that cover the rest of a resource are put together to that rest. -/
theorem foldlM_of_covers {offset : Nat} {ws : List Value} (h : Covers res offset ws) :
    ∀ (i : Nat) (acc : List UInt8),
      (ws.zipIdx i).foldlM (assembleWindow codecs (i + ws.length - 1)) acc =
        .ok (acc ++ res.ciphertext.drop offset) := by
  induction h with
  | @last offset n w hw hend =>
      intro i acc
      have hround : assembleWindow codecs (i + 1 - 1) acc (w, i) = _ :=
        assembleWindow_of_isWindow hbase64 acc hw (by omega)
      rw [List.take_of_length_le (by rw [List.length_drop]; omega)] at hround
      rw [List.zipIdx_cons, List.zipIdx_nil, List.foldlM_cons, List.length_singleton, hround]
      rfl
  | @more offset n w ws hw hlt hrest ih =>
      intro i acc
      have hpos : 0 < ws.length := List.length_pos_iff.mpr hrest.ne_nil
      have hround : assembleWindow codecs (i + (ws.length + 1) - 1) acc (w, i) = _ :=
        assembleWindow_of_isWindow hbase64 acc hw (by omega)
      have hindex : i + (ws.length + 1) - 1 = i + 1 + ws.length - 1 := by omega
      rw [List.zipIdx_cons, List.foldlM_cons, List.length_cons, hround]
      change (ws.zipIdx (i + 1)).foldlM (assembleWindow codecs (i + (ws.length + 1) - 1))
        (acc ++ (res.ciphertext.drop offset).take n) = _
      rw [hindex, ih, List.append_assoc, ← List.drop_drop, List.take_append_drop]

/-- Windows that cover a resource are put together to it. -/
theorem assembleWindows_of_covers {ws : List Value} (h : Covers res 0 ws) :
    assembleWindows codecs ws = .ok res.fetched := by
  have hloop := foldlM_of_covers hbase64 h 0 []
  rw [Nat.zero_add, List.nil_append, List.drop_zero] at hloop
  obtain ⟨n, w, rest, rfl, hw⟩ : ∃ n w rest, ws = w :: rest ∧ IsWindow res 0 n w := by
    cases h with
    | last hw _ => exact ⟨_, _, _, rfl, hw⟩
    | more hw _ _ => exact ⟨_, _, _, rfl, hw⟩
  obtain ⟨hroot, hproof, hlens⟩ := hw.first rfl
  have hparse : parseChunkLens w = .ok res.chunkLens := by
    rw [parseChunkLens, hlens]
    exact mapM_asU64 _ res.chunkLens
  unfold assembleWindows
  rw [hloop]
  simp only [List.head?_cons, okOr, bind, Except.bind, hroot, hproof, hparse, Option.bind_some,
    Value.asStr]
  rfl

end Assemble

/-! ## An honest node -/

section Node

variable (base storeHex retrievalKeyHex : Str) (rootHex : Option Str)

/-- The request for the window at an offset. -/
def contentQuery (offset : Nat) : HttpCall :=
  .post (base ++ "/".toList) (rpcBody "dig.getContent".toList
    (buildContentParams storeHex retrievalKeyHex rootHex (UInt64.ofNat offset)))

variable (res : Resource) (network : HttpBehaviour) (size : List HttpEvent → Nat → Nat)

/-- The node answers every offset in the resource with a window, whose size it chooses
from everything that went before. -/
def IsHonest : Prop :=
  ∀ history offset, (offset < res.ciphertext.length ∨ offset = 0) →
    ∃ w, readResponse (network history
        (contentQuery base storeHex retrievalKeyHex rootHex offset)) = .ok w ∧
      IsWindow res offset (size history offset) w

/-- So many windows reach the end of the resource. -/
def Suffices : Nat → List HttpEvent → Nat → Prop
  | 0, _, _ => False
  | count + 1, history, offset =>
      let q := contentQuery base storeHex retrievalKeyHex rootHex offset
      offset + size history offset = res.ciphertext.length ∨
        Suffices count (history ++ [⟨q, network history q⟩]) (offset + size history offset)

variable {base storeHex retrievalKeyHex rootHex res network size}

/-- The loop collects windows that cover the rest of the resource. -/
theorem exists_covers (hlen : res.ciphertext.length < UInt64.size)
    (hhonest : IsHonest base storeHex retrievalKeyHex rootHex res network size) {count : Nat}
    {history : List HttpEvent} {offset : Nat} {windows : List Value}
    (hoffset : offset < res.ciphertext.length ∨ offset = 0)
    (hroom : windows.length + count ≤ maxContentWindows)
    (hsuffices : Suffices base storeHex retrievalKeyHex rootHex res network size count history
      offset) :
    ∃ ws, Covers res offset ws ∧
      ((contentWindows base storeHex retrievalKeyHex rootHex windows
        (UInt64.ofNat offset)).runFrom network history).2 = .ok (windows ++ ws) := by
  induction count generalizing history offset windows with
  | zero => exact hsuffices.elim
  | succ count ih =>
      obtain ⟨w, hanswer, hw⟩ := hhonest history offset hoffset
      have hask : ∀ f : Except NodeError Value → HttpProg (Except NodeError (List Value)),
          ((contentCall base storeHex retrievalKeyHex rootHex (UInt64.ofNat offset) >>=
            f).runFrom network history).2 =
          ((f (.ok w)).runFrom network (history ++
            [⟨contentQuery base storeHex retrievalKeyHex rootHex offset, network history
              (contentQuery base storeHex retrievalKeyHex rootHex offset)⟩])).2 := by
        intro f
        rw [← hanswer]
        rfl
      rw [contentWindows, dif_neg (by omega), hask]
      dsimp only
      rw [hw.isComplete_eq]
      by_cases hend : offset + size history offset = res.ciphertext.length
      · rw [decide_eq_true hend, if_pos rfl]
        exact ⟨[w], .last hw hend, rfl⟩
      · have hlt : offset + size history offset < res.ciphertext.length :=
          Nat.lt_of_le_of_ne hw.bound hend
        have hpos : 1 ≤ size history offset := by
          refine hw.size.resolve_right fun hempty => ?_
          rw [hempty, List.length_nil] at hlt
          omega
        have hnext : nextOffset w = some (UInt64.ofNat (offset + size history offset)) := by
          rw [nextOffset, hw.next hlt, Option.bind_some, ← Value.asU64_number,
            UInt64.toNat_ofNat_of_lt' (by omega)]
        have hadvances : UInt64.ofNat offset < UInt64.ofNat (offset + size history offset) := by
          rw [UInt64.lt_iff_toNat_lt, UInt64.toNat_ofNat_of_lt' (by omega),
            UInt64.toNat_ofNat_of_lt' (by omega)]
          omega
        have hroom' : (windows ++ [w]).length + count ≤ maxContentWindows := by
          rw [List.length_append, List.length_singleton]
          omega
        obtain ⟨ws, hcovers, hrun⟩ := ih (Or.inl hlt) hroom'
          (hsuffices.resolve_left hend)
        refine ⟨w :: ws, .more hw hlt hcovers, ?_⟩
        rw [decide_eq_false hend, if_neg Bool.false_ne_true, hnext]
        dsimp only
        rw [if_pos hadvances, hrun, List.append_assoc]
        rfl

/-- Whatever the cuts of an honest node, `get_content` returns its resource when as many
windows as the client takes reach the end. -/
theorem getContent_lossless
    (hbase64 : ∀ bytes, codecs.base64Decode (utf8 (res.encode bytes)) = some bytes)
    (hlen : res.ciphertext.length < UInt64.size)
    (hhonest : IsHonest base storeHex retrievalKeyHex rootHex res network size)
    (hsuffices : Suffices base storeHex retrievalKeyHex rootHex res network size maxContentWindows
      [] 0) :
    ((getContent codecs base storeHex retrievalKeyHex rootHex).run network).2 =
      .ok res.fetched := by
  have hroom : ([] : List Value).length + maxContentWindows ≤ maxContentWindows :=
    (Nat.zero_add _).le
  obtain ⟨ws, hcovers, hrun⟩ := exists_covers hlen hhonest (Or.inr rfl) hroom hsuffices
  have hloop : ((contentWindows base storeHex retrievalKeyHex rootHex [] 0).run network).2 =
      .ok ws := hrun
  have hout : (getContent codecs base storeHex retrievalKeyHex rootHex).run network =
      (((contentWindows base storeHex retrievalKeyHex rootHex [] 0).run network).1,
        ((contentWindows base storeHex retrievalKeyHex rootHex [] 0).run network).2 >>=
          assembleWindows codecs) := Prog.run_bind_ret network _ _
  rw [hout, hloop]
  exact assembleWindows_of_covers hbase64 hcovers

end Node

/-! ## A node that serves a resource -/

/-- The window of `n` bytes that an honest node sends from an offset on. -/
def Resource.window (res : Resource) (offset n : Nat) : Value :=
  .object ([
    ("ciphertext".toList, .string (res.encode ((res.ciphertext.drop offset).take n))),
    ("complete".toList, .bool (offset + n = res.ciphertext.length)),
    ("root".toList, .string res.root)] ++
    (if offset + n < res.ciphertext.length then
      [("next_offset".toList, .number ((offset + n : Nat) : Int))]
    else []) ++
    if offset = 0 then [
      ("inclusion_proof".toList, .string res.proof),
      ("chunk_lens".toList,
        .array (res.chunkLens.map fun len => .number ((len.toNat : Nat) : Int)))]
    else [])

/-- The offset that a request for content names. -/
def requestedOffset : HttpCall → Option UInt64
  | .get _ => none
  | .post _ body => (((body.get "params".toList).bind (Value.get "offset".toList)).bind Value.asU64)

/-- A network in which a node answers every request with a window of the resource. -/
def serve (res : Resource) (size : Nat → Nat) : HttpBehaviour
  | _, .get _ => false
  | _, .post url body =>
      let offset := ((requestedOffset (.post url body)).getD 0).toNat
      .ok { status := 200, statusText := "200 OK".toList
            json := .ok (.object [("result".toList, res.window offset (size offset))]) }

theorem requestedOffset_contentQuery (base storeHex retrievalKeyHex : Str) (rootHex : Option Str)
    (offset : Nat) :
    requestedOffset (contentQuery base storeHex retrievalKeyHex rootHex offset) =
      some (UInt64.ofNat offset) := by
  have hparams : (rpcBody "dig.getContent".toList (buildContentParams storeHex retrievalKeyHex
      rootHex (UInt64.ofNat offset))).get "params".toList =
      some (buildContentParams storeHex retrievalKeyHex rootHex (UInt64.ofNat offset)) := rfl
  have hoffset : (buildContentParams storeHex retrievalKeyHex rootHex (UInt64.ofNat offset)).get
      "offset".toList = some (.number (((UInt64.ofNat offset).toNat : Nat) : Int)) := rfl
  rw [contentQuery, requestedOffset, hparams, Option.bind_some, hoffset, Option.bind_some,
    Value.asU64_number]

theorem isWindow_window {offset n : Nat} (hsize : 1 ≤ n ∨ res.ciphertext = [])
    (hbound : offset + n ≤ res.ciphertext.length) : IsWindow res offset n (res.window offset n) where
  size := hsize
  bound := hbound
  ciphertext := rfl
  complete := rfl
  next hlt := by
    rw [Resource.window, if_pos hlt]
    rfl
  first hzero := by
    subst hzero
    rw [Resource.window]
    split <;> exact ⟨rfl, rfl, rfl⟩
  later hne := by
    rw [Resource.window, if_neg hne]
    split <;> exact ⟨rfl, rfl⟩

/-- Such a node is honest, if its cuts stay in the resource. -/
theorem isHonest_serve (base storeHex retrievalKeyHex : Str) (rootHex : Option Str)
    {size : Nat → Nat} (hlen : res.ciphertext.length < UInt64.size)
    (hsize : ∀ offset, (offset < res.ciphertext.length ∨ offset = 0) →
      (1 ≤ size offset ∨ res.ciphertext = []) ∧ offset + size offset ≤ res.ciphertext.length) :
    IsHonest base storeHex retrievalKeyHex rootHex res (serve res size)
      fun _ offset => size offset := by
  intro history offset hoffset
  obtain ⟨hpos, hbound⟩ := hsize offset hoffset
  refine ⟨res.window offset (size offset), ?_, isWindow_window hpos hbound⟩
  have hback : (UInt64.ofNat offset).toNat = offset := UInt64.toNat_ofNat_of_lt' (by omega)
  have hanswer : ∀ q, requestedOffset q = some (UInt64.ofNat offset) →
      ∀ url body, q = .post url body →
        serve res size history (.post url body) = .ok
          { status := 200, statusText := "200 OK".toList,
            json := .ok (.object [("result".toList, res.window offset (size offset))]) } := by
    rintro _ hasked url body rfl
    rw [serve, hasked, Option.getD_some, hback]
  have hserved := hanswer _
    (requestedOffset_contentQuery base storeHex retrievalKeyHex rootHex offset) _ _ rfl
  exact congrArg readResponse hserved

/-- Three bytes, written in base64 by the reference codec. -/
def threeBytes : Resource where
  ciphertext := [1, 2, 3]
  proof := "cHJvb2Y=".toList
  chunkLens := [3]
  root := "ab".toList
  encode bytes := (Rfc4648.base64Encode bytes).map fun b => Char.ofNat b.toNat

/-- A window of two bytes and one of the rest are put together. -/
theorem getContent_lossless_threeBytes :
    ((getContent Codecs.reference "http://dig.local".toList "00".toList "11".toList none).run
      (serve threeBytes fun offset => min 2 (3 - offset))).2 = .ok threeBytes.fetched := by
  have hbase64 : ∀ bytes,
      Codecs.reference.base64Decode (utf8 (threeBytes.encode bytes)) = some bytes := by
    intro bytes
    have hutf8 : utf8 (threeBytes.encode bytes) = Rfc4648.base64Encode bytes :=
      utf8_map_ofNat (Rfc4648.ascii_base64Encode bytes)
    rw [hutf8]
    exact Rfc4648.base64Decode_base64Encode bytes
  have hhonest : IsHonest "http://dig.local".toList "00".toList "11".toList none threeBytes
      (serve threeBytes fun offset => min 2 (3 - offset)) fun _ offset => min 2 (3 - offset) := by
    apply isHonest_serve _ _ _ _ (by decide)
    intro offset hoffset
    change offset < 3 ∨ offset = 0 at hoffset
    change (1 ≤ min 2 (3 - offset) ∨ _) ∧ offset + min 2 (3 - offset) ≤ 3
    omega
  have hsuffices : ∀ count, Suffices "http://dig.local".toList "00".toList "11".toList none
      threeBytes (serve threeBytes fun offset => min 2 (3 - offset))
      (fun _ offset => min 2 (3 - offset)) (count + 2) [] 0 :=
    fun _ => Or.inr (Or.inl rfl)
  exact getContent_lossless hbase64 (by decide) hhonest (hsuffices 99998)

end ReqwestNodeClient

end DigDns
