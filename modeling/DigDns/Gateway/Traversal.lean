import DigDns.Gateway.Integrity
import DigDns.Support.Percent

/-!
# Traversal

`resource_key_for_path` looks for traversal in the characters of a path, and a
client may write any of them as an escape.  The two readings of a path are
compared component by component.
-/

namespace DigDns

open Rust Percent

/-- Bytes with a `.` or `..` between slashes, a backslash or a control byte. -/
def Traverses (bytes : List UInt8) : Prop :=
  (∃ component ∈ bytes.splitOn 0x2f, component = [0x2e] ∨ component = [0x2e, 0x2e]) ∨
    ∃ b ∈ bytes, b = 0x5c ∨ b < 0x20

instance (bytes : List UInt8) : Decidable (Traverses bytes) :=
  inferInstanceAs (Decidable (_ ∨ _))

/-- What only the decoded path shows. -/
def HidesTraversal (path : Str) : Prop :=
  Traverses (decode path) ∧ ¬ Traverses (utf8 path)

/-- A path without its first slash, and the index page in the place of nothing. -/
def pathKey (path : Str) : Str :=
  let trimmed := (stripPrefix ['/'] path).getD path
  if trimmed = [] then "index.html".toList else trimmed

/-- A traversal is refused in every encoding, and every other path is its own key. -/
structure RefusesTraversal (crates : Crates) (path : Str) : Prop where
  refused : Traverses (decode path) → resourceKeyForPath crates path = .error .invalidPath
  verbatim : ¬ Traverses (decode path) → resourceKeyForPath crates path = .ok (pathKey path)

/-! ## What the code sees -/

theorem not_traverses_nil : ¬ Traverses [] := by
  rintro (⟨component, hcomponent, hdots⟩ | ⟨b, hb, -⟩)
  · rw [List.splitOn_nil, List.mem_singleton] at hcomponent
    subst hcomponent
    rcases hdots with h | h
    · cases h
    · cases h
  · cases hb

theorem traverses_cons_slash (bytes : List UInt8) : Traverses (0x2f :: bytes) ↔ Traverses bytes := by
  have hsplit : (0x2f :: bytes).splitOn 0x2f = [] :: bytes.splitOn 0x2f :=
    List.splitOn_append_cons_self_of_not_mem List.not_mem_nil bytes
  rw [Traverses, Traverses, hsplit, List.exists_mem_cons_iff, List.exists_mem_cons_iff]
  simp

theorem traverses_utf8_iff (s : Str) : Traverses (utf8 s) ↔
    (∃ c ∈ s.splitOn '/', c = ['.'] ∨ c = ['.', '.']) ∨ '\\' ∈ s ∨ ∃ b ∈ utf8 s, b < 0x20 := by
  have hsplit : (utf8 s).splitOn 0x2f = (s.splitOn '/').map utf8 := splitOn_utf8 (c := '/') (by decide) s
  have hone : ∀ c : Str, utf8 c = [0x2e] ↔ c = ['.'] := fun c => utf8_injective.eq_iff' rfl
  have htwo : ∀ c : Str, utf8 c = [0x2e, 0x2e] ↔ c = ['.', '.'] :=
    fun c => utf8_injective.eq_iff' rfl
  have hbackslash : (0x5c : UInt8) ∈ utf8 s ↔ '\\' ∈ s := mem_utf8_iff_of_ascii (by decide)
  rw [Traverses, hsplit, ← hbackslash]
  simp only [List.mem_map, exists_exists_and_eq_and, hone, htwo, and_or_left, exists_or,
    exists_eq_right]

/-- The slash that the code strips makes no difference. -/
theorem traverses_trimmed (path : Str) :
    Traverses (utf8 ((stripPrefix ['/'] path).getD path)) ↔ Traverses (utf8 path) := by
  cases hslash : stripPrefix ['/'] path with
  | none => rfl
  | some trimmed =>
      obtain rfl := stripPrefix_eq_some_iff.mp hslash
      exact (traverses_cons_slash (utf8 trimmed)).symm

variable {crates : Crates}

/-- The code refuses a path for the traversal in its characters, and for nothing else. -/
theorem resourceKeyForPath_eq (hdefault : crates.core.defaultResourceKey = "index.html".toList)
    (path : Str) :
    (Traverses (utf8 path) → resourceKeyForPath crates path = .error .invalidPath) ∧
      (¬ Traverses (utf8 path) → resourceKeyForPath crates path = .ok (pathKey path)) := by
  rw [← traverses_trimmed, pathKey, resourceKeyForPath, hdefault]
  generalize (stripPrefix ['/'] path).getD path = trimmed
  by_cases hempty : trimmed = []
  · rw [if_pos hempty, if_pos hempty, hempty]
    exact ⟨fun h => absurd h not_traverses_nil, fun _ => rfl⟩
  rw [if_neg hempty, if_neg hempty, traverses_utf8_iff]
  have hchars : (trimmed.contains '\\' || (utf8 trimmed).any (· < 0x20)) = true ↔
      '\\' ∈ trimmed ∨ ∃ b ∈ utf8 trimmed, b < 0x20 := by
    simp
  have hdots : ((trimmed.splitOn '/').any fun c => c = ['.'] || c = ['.', '.']) = true ↔
      ∃ c ∈ trimmed.splitOn '/', c = ['.'] ∨ c = ['.', '.'] := by
    simp
  rw [← hchars, ← hdots]
  split_ifs with hbytes hcomponents
  · exact ⟨fun _ => rfl, fun h => absurd (Or.inr hbytes) h⟩
  · exact ⟨fun _ => rfl, fun h => absurd (Or.inl hcomponents) h⟩
  · exact ⟨fun h => absurd h (not_or.mpr ⟨hcomponents, hbytes⟩), fun _ => rfl⟩

/-! ## What decoding brings out -/

/-- Decoding keeps the traversal that is there. -/
theorem traverses_decode {path : Str} (h : Traverses (utf8 path)) : Traverses (decode path) := by
  rw [traverses_utf8_iff] at h
  rcases h with ⟨component, hcomponent, hdots⟩ | h
  · have hsplit : (decode path).splitOn 0x2f =
        (path.splitOn '/').flatMap fun piece => (decode piece).splitOn 0x2f :=
      splitOn_decode (c := '/') (by decide) (by decide) (by decide) path
    refine Or.inl ?_
    rw [hsplit]
    rcases hdots with rfl | rfl
    · exact ⟨[0x2e], List.mem_flatMap.mpr ⟨_, hcomponent, by decide⟩, Or.inl rfl⟩
    · exact ⟨[0x2e, 0x2e], List.mem_flatMap.mpr ⟨_, hcomponent, by decide⟩, Or.inr rfl⟩
  · refine Or.inr ?_
    have hkept : ∀ b : UInt8, (b = 0x5c ∨ b < 0x20) → b ∈ utf8 path → b ∈ decode path := by
      -- Neither a backslash nor a control character is a part of an escape.
      have hplain : ∀ n : Fin 128, (n.val = 0x5c ∨ n.val < 0x20) →
          Hex.digitValue (Char.ofNat n.val) = none ∧ Char.ofNat n.val ≠ '%' := by decide
      intro b hb hmem
      have hval : b.toNat = 0x5c ∨ b.toNat < 0x20 :=
        hb.imp (congrArg UInt8.toNat) UInt8.lt_iff_toNat_lt.mp
      have hascii : b.toNat < 128 := by omega
      obtain ⟨hdigit, hpercent⟩ := hplain ⟨b.toNat, hascii⟩ hval
      apply utf8_subset_decode hdigit hpercent ((mem_utf8_iff_of_ascii hascii).mp hmem)
      exact (mem_utf8_iff_of_ascii hascii).mpr (List.mem_singleton_self _)
    rcases h with hbackslash | ⟨b, hb, hlow⟩
    · have hbyte := (mem_utf8_iff_of_ascii (b := 0x5c) (by decide)).mpr hbackslash
      exact ⟨0x5c, hkept _ (Or.inl rfl) hbyte, Or.inl rfl⟩
    · exact ⟨b, hkept b (Or.inr hlow) hb, Or.inr hlow⟩

/-- The code is right about exactly the paths that hide no traversal. -/
theorem refusesTraversal_iff (hdefault : crates.core.defaultResourceKey = "index.html".toList)
    (path : Str) : RefusesTraversal crates path ↔ ¬ HidesTraversal path := by
  obtain ⟨hrefused, hverbatim⟩ := resourceKeyForPath_eq hdefault path
  constructor
  · rintro h ⟨hdecoded, hliteral⟩
    have hkey := (hverbatim hliteral).symm.trans (h.refused hdecoded)
    cases hkey
  · intro h
    constructor
    · intro hdecoded
      by_contra hserved
      exact h ⟨hdecoded, fun hliteral => hserved (hrefused hliteral)⟩
    · intro hharmless
      exact hverbatim fun hliteral => hharmless (traverses_decode hliteral)

/-- A path whose escapes hide nothing. -/
theorem refusesTraversal_asset : RefusesTraversal sampleCrates "/assets/%2Eapp%20b.js".toList := by
  refine (refusesTraversal_iff rfl _).mpr fun h => ?_
  -- They stand for a dot in a name and for a blank.
  have hharmless : ¬ Traverses (decode "/assets/%2Eapp%20b.js".toList) := by decide +kernel
  exact hharmless h.1

/-- Two escaped dots. -/
theorem refusesTraversal_escapedDots : ¬ RefusesTraversal sampleCrates "/%2e%2E/b".toList := by
  intro h
  have htraverses : Traverses (decode "/%2e%2E/b".toList) :=
    Or.inl ⟨[0x2e, 0x2e], by decide, Or.inr rfl⟩
  cases h.refused htraverses

end DigDns
