import DigDns.Label

/-!
# Request hosts

`host.rs`: `<store>.<tld>` names the latest root of a store, and
`<root>.<store>.<tld>` one root of it.
-/

namespace DigDns

open Rust

/-- What a parsed host resolves to. -/
inductive HostTarget
  | latest (storeHex : Str)
  | pinned (storeHex rootHex : Str)
deriving DecidableEq

/-- The store that a target names. -/
def HostTarget.storeHex : HostTarget → Str
  | latest storeHex => storeHex
  | pinned storeHex _ => storeHex

/-- Errors from parsing a request host. -/
inductive HostError
  | notDigTld (tld : Str)
  | noStoreLabel
  | tooManyLabels (n : Nat)
  | badLabel (e : LabelError)
deriving DecidableEq

/-- `Display` of a `HostError`. -/
def HostError.message : HostError → Str
  | notDigTld tld => "host is not under .".toList ++ tld
  | noStoreLabel => "host has no store label".toList
  | tooManyLabels n =>
      "host has ".toList ++ fmtNat n ++
        " labels before the TLD; expected 1 (store) or 2 (root.store)".toList
  | badLabel e => "invalid store/root label: ".toList ++ e.message

/-- `parse_dig_host` -/
def parseDigHost (codecs : Codecs) (host tld : Str) : Except HostError HostTarget :=
  let h := trim host
  let h := (stripSuffix ['.'] h).getD h
  let h := splitNext ':' h
  let tldLower := toAsciiLowercase tld
  let lower := toAsciiLowercase h
  if lower = tldLower then .error .noStoreLabel
  else
    let dotTld := '.' :: tldLower
    if !dotTld.isSuffixOf lower then .error (.notDigTld tld)
    else
      let remainder := h.take (h.length - dotTld.length)
      if remainder = [] then .error .noStoreLabel
      else
        let labels := remainder.splitOn '.'
        if labels.any (· = []) then .error .noStoreLabel
        else
          match labels with
          | [store] => do
              let storeHex ← (labelToStoreHex codecs store).mapError .badLabel
              return .latest storeHex
          | [root, store] => do
              let storeHex ← (labelToStoreHex codecs store).mapError .badLabel
              let rootHex ← (labelToStoreHex codecs root).mapError .badLabel
              return .pinned storeHex rootHex
          | _ => .error (.tooManyLabels labels.length)

end DigDns
