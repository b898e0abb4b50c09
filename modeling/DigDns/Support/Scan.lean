import DigDns.Support.Interaction

/-!
# Programs that read a buffer

A scan is a program whose queries are positions, each answered with the element
there.  Nothing in its type keeps it inside the buffer: `Scans` says that it asks
for positions of the buffer only, whatever it is answered, and that on the
buffer's own elements it comes to a given value.
-/

namespace Interaction

variable {ε α β : Type}

/-- A program that reads elements by their position. -/
abbrev Scan (ε : Type) := Prog (fun _ : Nat => ε)

namespace Scan

/-- A checked read in a buffer of `n` elements. -/
def fetch (n i : Nat) : Scan ε (Option ε) :=
  if i < n then .ask i fun x => .ret (some x) else .ret none

/-- Go on with the value of a scan, if it has found one. -/
def thenSome (p : Scan ε (Option α)) (f : α → Scan ε (Option β)) : Scan ε (Option β) :=
  p >>= fun found =>
    match found with
    | none => .ret none
    | some a => f a

/-- The value a scan comes to on a buffer; outside it an arbitrary element is read. -/
def result [Inhabited ε] (buffer : List ε) (p : Scan ε α) : α :=
  (p.eval (fun _ i => (buffer[i]?.getD default, ())) ()).1

end Scan

/-- The scan stays inside the buffer and comes to the value. -/
structure Scans [Inhabited ε] (buffer : List ε) (p : Scan ε α) (a : α) : Prop where
  inside : p.Asks (· < buffer.length)
  result : p.result buffer = a

section Rules

variable [Inhabited ε] {buffer : List ε}

theorem scans_ret (a : α) : Scans buffer (.ret a) a :=
  ⟨trivial, rfl⟩

theorem scans_ask {i : Nat} {x : ε} {k : ε → Scan ε α} {g : ε → α} (hget : buffer[i]? = some x)
    (hk : ∀ y, Scans buffer (k y) (g y)) : Scans buffer (.ask i k) (g x) := by
  obtain ⟨hi, -⟩ := List.getElem?_eq_some_iff.mp hget
  refine ⟨⟨hi, fun y => (hk y).inside⟩, ?_⟩
  have hx : buffer[i]?.getD default = x := by
    rw [hget, Option.getD_some]
  rw [← (hk x).result, ← hx]
  rfl

theorem scans_fetch (i : Nat) : Scans buffer (Scan.fetch buffer.length i) buffer[i]? := by
  rw [Scan.fetch]
  split
  · rename_i hi
    rw [List.getElem?_eq_getElem hi]
    exact scans_ask (List.getElem?_eq_getElem hi) fun y => scans_ret (some y)
  · rename_i hi
    rw [List.getElem?_eq_none (Nat.le_of_not_lt hi)]
    exact scans_ret none

theorem scans_thenSome {p : Scan ε (Option α)} {f : α → Scan ε (Option β)} {a : Option α}
    {g : α → Option β} (hp : Scans buffer p a) (hf : ∀ x, Scans buffer (f x) (g x)) :
    Scans buffer (p.thenSome f) (a.bind g) := by
  refine ⟨Prog.asks_bind hp.inside fun found => ?_, ?_⟩
  · cases found with
    | none => trivial
    | some x => exact (hf x).inside
  · have hvalue := hp.result
    rw [Scan.result] at hvalue
    rw [Scan.result, Scan.thenSome, Prog.eval_bind, hvalue]
    cases a with
    | none => rfl
    | some x => exact (hf x).result

end Rules

end Interaction
