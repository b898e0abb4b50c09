import DigDns.DigLocal
import DigDns.Support.Transition

/-!
# The ladder and the proxy

A node and any number of `dig-dns` processes start and stop in any order, and
each process goes through `resolve` and then the ensure step.  A reverse proxy
at `dig.local` answers every probe, with 502 where there is no node, so a
process that resolves without a node reaches the terminal base exactly when no
proxy stood at `dig.local` as it probed there.
-/

namespace DigDns

open Rust Interaction Transition ReqwestNodeClient

namespace Ladder

/-- Who listens at the address of `dig.local`. -/
inductive Holder
  | node
  | proxy (pid : Nat)
deriving DecidableEq

/-- A `dig-dns` process: what is left of its `resolve` and of its ensure step,
and, kept for the record, whether no node has run since it began to resolve and
whether a proxy stood at `dig.local` when it probed there. -/
structure Proc where
  config : Config
  client : Except NodeError Unit
  resolve : HttpProg (Except NodeError Str)
  ensure : HostProg EnsureOutcome
  nodeless : Bool
  proxied : Bool

/-- The node that runs, with its status on `/health`; who listens at `dig.local`;
and the processes. -/
structure World where
  node : Option Nat
  holder : Option Holder
  procs : Nat → Option Proc

/-- The URL that a probe of a base asks for. -/
def health (base : Str) : Str := base ++ "/health".toList

/-- Whether a `dig-dns` process serves `dig.local`. -/
def World.proxied (w : World) : Bool :=
  match w.holder with
  | some (.proxy _) => true
  | _ => false

/-- The status of the response to a probe, where there is one. -/
def World.status (address : Ipv4Addr × UInt16) (w : World) (url : Str) : Option Nat :=
  if url = health localhostBase then w.node
  else if url = health digLocalBase ∨ url = health (addressBase address.1 address.2) then
    match w.holder with
    | none => none
    | some .node => w.node
    | some (.proxy _) => some (proxyStatus w.node)
  else none

/-- What a process can be answered, and what its call changes. -/
inductive Answers (address : Ipv4Addr × UInt16) (pid : Nat) :
    World → (q : HostCall) → HostAnswer q → World → Prop
  | get (w : World) (url : Str) :
      Answers address pid w (.http (.get url)) (w.status address url).isSome w
  | post (w : World) (url : Str) (body : Serde.Value) (r : Except Str HttpResponse) :
      Answers address pid w (.http (.post url body)) r w
  | bound (w : World) (ip : Ipv4Addr) (port boundPort : UInt16) (hfree : w.holder = none) :
      Answers address pid w (.bind ip port) (.ok boundPort) { w with holder := some (.proxy pid) }
  | refused (w : World) (ip : Ipv4Addr) (port : UInt16) (reason : Str) :
      Answers address pid w (.bind ip port) (.error reason) w

/-- Whether a process is done with `resolve`. -/
def Proc.resolved (p : Proc) : Bool :=
  match p.resolve with
  | .ret _ => true
  | .ask _ _ => false

/-- A process that begins to resolve. -/
def Proc.begin (w : World) (config : Config) (client : Except NodeError Unit) : Proc where
  config
  client
  resolve := ReqwestNodeClient.resolve client config
  ensure := ensureDigLocalMapping client config
  nodeless := w.node.isNone
  proxied := false

/-- A node starts while a process runs. -/
def Proc.sawNode (p : Proc) : Proc := { p with nodeless := p.nodeless && p.resolved }

/-- Whether a request probes `dig.local`. -/
def probesDigLocal : HttpCall → Bool
  | .get url => url = health digLocalBase
  | .post _ _ => false

/-- A process in a new state. -/
def World.put (w : World) (pid : Nat) (p : Proc) : World :=
  { w with procs := Function.update w.procs pid (some p) }

theorem World.put_self (w : World) (pid : Nat) (p : Proc) : (w.put pid p).procs pid = some p :=
  Function.update_self _ _ _

theorem World.put_of_ne (w : World) {pid pid' : Nat} (p : Proc) (hne : pid' ≠ pid) :
    (w.put pid p).procs pid' = w.procs pid' :=
  Function.update_of_ne hne _ _

/-- A listener at `dig.local` goes with its owner. -/
def World.release (w : World) (owner : Holder) : World :=
  { w with holder := if w.holder = some owner then none else w.holder }

/-- A process with an answer to a request of its `resolve`. -/
def Proc.answered (p : Proc) (w : World) (q : HttpCall)
    (rest : HttpProg (Except NodeError Str)) : Proc :=
  { p with
    resolve := rest
    proxied := p.proxied || (probesDigLocal q && w.proxied) }

/-- One step of the node or of a process. -/
inductive Step (address : Ipv4Addr × UInt16) : World → World → Prop
  | nodeStart {w : World} (status : Nat) (hnode : w.node = none) :
      Step address w
        { w with node := some status, procs := fun pid => (w.procs pid).map Proc.sawNode }
  | nodeMap {w : World} (hnode : w.node.isSome) (hfree : w.holder = none) :
      Step address w { w with holder := some .node }
  | nodeStop (w : World) : Step address w { w.release .node with node := none }
  | start {w : World} (pid : Nat) (config : Config) (client : Except NodeError Unit)
      (hpid : w.procs pid = none) (hoverride : config.nodeUrl = none)
      (haddress : (config.digLocalIp, config.digLocalPort) = address) :
      Step address w (w.put pid (Proc.begin w config client))
  | resolve {w w' : World} {pid : Nat} {p : Proc} {q : HttpCall}
      {k : HttpAnswer q → HttpProg (Except NodeError Str)} {r : HttpAnswer q}
      (hp : w.procs pid = some p) (hask : p.resolve = .ask q k)
      (hr : Answers address pid w (.http q) r w') :
      Step address w (w'.put pid (p.answered w q (k r)))
  | ensure {w w' : World} {pid : Nat} {p : Proc} {base : Str} {q : HostCall}
      {k : HostAnswer q → HostProg EnsureOutcome} {r : HostAnswer q}
      (hp : w.procs pid = some p) (hbase : p.resolve = .ret (.ok base))
      (hask : p.ensure = .ask q k) (hr : Answers address pid w q r w') :
      Step address w (w'.put pid { p with ensure := k r })
  | retry {w : World} {pid : Nat} {p : Proc} {reason : Str}
      (hp : w.procs pid = some p) (hensure : p.ensure = .ret (.unavailable reason)) :
      Step address w (w.put pid { p with ensure := ensureDigLocalMapping p.client p.config })
  | stop (w : World) (pid : Nat) :
      Step address w { w.release (.proxy pid) with procs := Function.update w.procs pid none }

/-- Nothing runs. -/
def World.empty : World where
  node := none
  holder := none
  procs _ := none

/-! ## What every run keeps -/

/-- Where a process that resolves without a node can be. -/
inductive OnLadder : HttpProg (Except NodeError Str) → Bool → Prop
  | failed (e : NodeError) : OnLadder (.ret (.error e)) false
  | first : OnLadder (firstAnswering [digLocalBase, localhostBase, rpcDigNetBase]) false
  | second : OnLadder (firstAnswering [localhostBase, rpcDigNetBase]) false
  | terminal : OnLadder (.ret (.ok rpcDigNetBase)) false
  | proxy : OnLadder (.ret (.ok digLocalBase)) true

/-- A process that began without a node either has seen none since or is done,
and it is on the ladder. -/
def NodelessProc (w : World) (p : Proc) : Prop :=
  p.nodeless = true → (p.resolved = false → w.node = none) ∧ OnLadder p.resolve p.proxied

/-- Only a running node listens at `dig.local` as the node. -/
structure LadderInv (w : World) : Prop where
  holder : w.holder = some .node → w.node.isSome
  procs : ∀ pid p, w.procs pid = some p → NodelessProc w p

theorem World.status_localhost (address : Ipv4Addr × UInt16) (w : World) :
    w.status address (health localhostBase) = w.node := by
  rw [status, if_pos rfl]

/-- Without a node, only a proxy answers at `dig.local`. -/
theorem World.status_digLocal (address : Ipv4Addr × UInt16) {w : World} (hinv : LadderInv w)
    (hnode : w.node = none) : (w.status address (health digLocalBase)).isSome = w.proxied := by
  have hne : health digLocalBase ≠ health localhostBase := by decide
  rw [status, if_neg hne, if_pos (Or.inl rfl), proxied]
  cases hholder : w.holder with
  | none => rfl
  | some holder =>
      cases holder with
      | node =>
          have := hinv.holder hholder
          simp [hnode] at this
      | proxy pid => rfl

theorem NodelessProc.mono {w w' : World} {p : Proc} (h : NodelessProc w p)
    (hnode : w.node = none → w'.node = none) : NodelessProc w' p := by
  intro hnodeless
  obtain ⟨hrunning, hladder⟩ := h hnodeless
  exact ⟨fun hresolved => hnode (hrunning hresolved), hladder⟩

/-- A call leaves the node and the processes alone, and no process listens as the node. -/
theorem Answers.frame {address : Ipv4Addr × UInt16} {pid : Nat} {w w' : World} {q : HostCall}
    {r : HostAnswer q} (h : Answers address pid w q r w') :
    w'.node = w.node ∧ w'.procs = w.procs ∧ (w'.holder = some .node → w.holder = some .node) := by
  cases h with
  | get url => exact ⟨rfl, rfl, id⟩
  | post url body r => exact ⟨rfl, rfl, id⟩
  | bound ip port boundPort hfree => exact ⟨rfl, rfl, by simp⟩
  | refused ip port reason => exact ⟨rfl, rfl, id⟩

/-- A process in a new state keeps the invariant where that process does. -/
theorem LadderInv.put {w w' : World} {pid : Nat} {p : Proc} (h : LadderInv w)
    (hnode : w'.node = w.node) (hprocs : w'.procs = w.procs)
    (hholder : w'.holder = some .node → w.holder = some .node) (hp : NodelessProc w p) :
    LadderInv (w'.put pid p) := by
  constructor
  · intro hnow
    change w'.node.isSome
    rw [hnode]
    exact h.holder (hholder hnow)
  · intro pid' p' hp'
    refine NodelessProc.mono (w := w) ?_ fun hnone => hnode.trans hnone
    by_cases hpid : pid' = pid
    · subst hpid
      rw [World.put_self, Option.some.injEq] at hp'
      rw [← hp']
      exact hp
    · rw [World.put_of_ne _ _ hpid, hprocs] at hp'
      exact h.procs pid' p' hp'

/-- An answer to its `resolve` keeps a process on the ladder. -/
theorem NodelessProc.answered {address : Ipv4Addr × UInt16} {pid : Nat} {w w' : World} {p : Proc}
    {q : HttpCall} {k : HttpAnswer q → HttpProg (Except NodeError Str)} {r : HttpAnswer q}
    (hinv : LadderInv w) (h : NodelessProc w p) (hask : p.resolve = .ask q k)
    (hr : Answers address pid w (.http q) r w') : NodelessProc w (p.answered w q (k r)) := by
  intro hnodeless
  obtain ⟨hrunning, hladder⟩ := h hnodeless
  have hnode : w.node = none := hrunning (by rw [Proc.resolved, hask])
  refine ⟨fun _ => hnode, ?_⟩
  simp only [Proc.answered]
  rw [hask] at hladder
  generalize hproxied : p.proxied = proxied at hladder ⊢
  generalize hrest : Prog.ask q k = rest at hladder
  cases hladder with
  | failed e => cases hrest
  | terminal => cases hrest
  | proxy => cases hrest
  | first =>
      cases hrest
      cases hr
      rw [show digLocalBase ++ "/health".toList = health digLocalBase from rfl,
        World.status_digLocal address hinv hnode]
      cases hserved : w.proxied with
      | true => exact .proxy
      | false => exact .second
  | second =>
      cases hrest
      cases hr
      rw [show localhostBase ++ "/health".toList = health localhostBase from rfl,
        World.status_localhost, hnode]
      exact .terminal

theorem nodelessProc_begin (w : World) {config : Config} (client : Except NodeError Unit)
    (hoverride : config.nodeUrl = none) : NodelessProc w (Proc.begin w config client) := by
  intro hnodeless
  refine ⟨fun _ => Option.isNone_iff_eq_none.mp hnodeless, ?_⟩
  cases client with
  | error e => exact .failed e
  | ok _ =>
      rw [Proc.begin, ReqwestNodeClient.resolve, candidateBases, hoverride]
      exact .first

theorem NodelessProc.sawNode {w w' : World} {p : Proc} (h : NodelessProc w p) :
    NodelessProc w' p.sawNode := by
  intro hnodeless
  obtain ⟨hbefore, hresolved⟩ := Bool.and_eq_true_iff.mp hnodeless
  have hladder := (h hbefore).2
  refine ⟨fun hrunning => ?_, hladder⟩
  change p.resolved = false at hrunning
  rw [hrunning] at hresolved
  cases hresolved

theorem World.release_holder {w : World} {owner : Holder}
    (h : (w.release owner).holder = some .node) : w.holder = some .node ∧ owner ≠ .node := by
  by_cases howner : w.holder = some owner
  · simp [release, howner] at h
  · simp only [release, howner, if_false] at h
    refine ⟨h, ?_⟩
    rintro rfl
    exact howner h

theorem LadderInv.step {address : Ipv4Addr × UInt16} {w w' : World} (h : Step address w w')
    (hinv : LadderInv w) : LadderInv w' := by
  cases h with
  | nodeStart status hnode =>
      refine ⟨fun _ => rfl, ?_⟩
      intro pid p hp
      obtain ⟨p₀, hp₀, rfl⟩ := Option.map_eq_some_iff.mp hp
      exact (hinv.procs pid p₀ hp₀).sawNode
  | nodeMap hnode hfree => exact ⟨fun _ => hnode, hinv.procs⟩
  | nodeStop =>
      refine ⟨fun hholder => absurd rfl (World.release_holder hholder).2, ?_⟩
      intro pid p hp
      exact (hinv.procs pid p hp).mono fun _ => rfl
  | start pid config client hpid hoverride haddress =>
      exact hinv.put rfl rfl id (nodelessProc_begin w client hoverride)
  | resolve hp hask hr =>
      obtain ⟨hnode, hprocs, hholder⟩ := hr.frame
      exact hinv.put hnode hprocs hholder ((hinv.procs _ _ hp).answered hinv hask hr)
  | ensure hp hbase hask hr =>
      obtain ⟨hnode, hprocs, hholder⟩ := hr.frame
      have hproc := hinv.procs _ _ hp
      exact hinv.put hnode hprocs hholder hproc
  | retry hp hensure =>
      have hproc := hinv.procs _ _ hp
      exact hinv.put rfl rfl id hproc
  | stop pid =>
      refine ⟨fun hholder => hinv.holder (World.release_holder hholder).1, ?_⟩
      intro pid' p hp
      by_cases hpid : pid' = pid
      · subst hpid
        simp at hp
      · exact hinv.procs pid' p (by simpa [Function.update_of_ne hpid] using hp)

theorem ladderInv_empty : LadderInv World.empty where
  holder h := nomatch h
  procs _ _ h := nomatch h

/-! ## The base of a process that resolves without a node -/

/-- A process that resolves while no node runs is bound to `dig.local` where a
`dig-dns` proxy stood there as it probed, and otherwise to the terminal base. -/
theorem resolve_nodeless {address : Ipv4Addr × UInt16} {w : World}
    (h : Reaches (Step address) World.empty w) {pid : Nat} {p : Proc} {base : Str}
    (hp : w.procs pid = some p) (hnodeless : p.nodeless = true)
    (hbase : p.resolve = .ret (.ok base)) :
    base = if p.proxied then digLocalBase else rpcDigNetBase := by
  have hinv : LadderInv w := h.invariant ladderInv_empty fun _ _ hstep hi => hi.step hstep
  have hladder := (hinv.procs pid p hp hnodeless).2
  rw [hbase] at hladder
  generalize hproxied : p.proxied = proxied at hladder ⊢
  generalize hrest : (Prog.ret (Except.ok base) : HttpProg (Except NodeError Str)) = rest at hladder
  cases hladder with
  | failed e => cases hrest
  | first => cases hrest
  | second => cases hrest
  | terminal =>
      cases hrest
      rfl
  | proxy =>
      cases hrest
      rfl

/-- The address of `dig.local` in the default configuration. -/
def defaultAddress : Ipv4Addr × UInt16 := (defaultDigLocalIp, defaultDigLocalPort)

/-- A process that resolves after another one has bound the proxy. -/
theorem exists_second :
    ∃ w p, Reaches (Step defaultAddress) World.empty w ∧ w.procs 1 = some p ∧
      p.nodeless = true ∧ p.resolve = .ret (.ok digLocalBase) := by
  have hstart : Reaches (Step defaultAddress) World.empty _ :=
    .single (.start 0 Config.default (.ok ()) rfl rfl rfl)
  have hfirst := hstart.tail (.resolve (World.put_self _ _ _) rfl (.get _ _))
  have hsecond := hfirst.tail (.resolve (World.put_self _ _ _) rfl (.get _ _))
  have hprobe := hsecond.tail (.ensure (World.put_self _ _ _) rfl rfl (.get _ _))
  have hbind := hprobe.tail (.ensure (World.put_self _ _ _) rfl rfl (.bound _ _ _ 80 rfl))
  have hother := hbind.tail (.start 1 Config.default (.ok ()) rfl rfl rfl)
  have hproxied := hother.tail (.resolve (World.put_self _ _ _) rfl (.get _ _))
  exact ⟨_, _, hproxied, World.put_self _ _ _, rfl, rfl⟩

/-- It finds that proxy. -/
theorem resolve_nodeless_second :
    ∃ w p, Reaches (Step defaultAddress) World.empty w ∧ w.procs 1 = some p ∧
      p.resolve = .ret (.ok digLocalBase) ∧ p.proxied = true := by
  obtain ⟨w, p, hreaches, hp, hnodeless, hbase⟩ := exists_second
  have hfound := resolve_nodeless hreaches hp hnodeless hbase
  refine ⟨w, p, hreaches, hp, hbase, ?_⟩
  by_contra hdirect
  rw [if_neg hdirect] at hfound
  exact absurd hfound (by decide)

/-- So its base is not the terminal one. -/
theorem resolve_nodeless_proxied :
    ¬∀ w, Reaches (Step defaultAddress) World.empty w → ∀ pid p base, w.procs pid = some p →
      p.nodeless = true → p.resolve = .ret (.ok base) → base = rpcDigNetBase := by
  intro hclaim
  obtain ⟨w, p, hreaches, hp, hnodeless, hbase⟩ := exists_second
  exact absurd (hclaim w hreaches 1 p digLocalBase hp hnodeless hbase) (by decide)

end Ladder

end DigDns
