import DigDns.OsConfig

/-!
# The machine

What the calls of `OsConfig` do to the files and the resolver rules of a
machine.  Every call can fail, and a failed write or directory creation may
have been done in part.  Commands other than PowerShell change neither files
nor rules; what PowerShell does with the two rule commands is a parameter.
-/

namespace DigDns.OsConfig

open Rust Interaction Posix

/-- The owner and mode of a file. -/
structure Attrs where
  uid : Nat
  mode : Nat
deriving DecidableEq

/-- A rule of the Windows name resolution policy table. -/
structure NrptRule where
  name : Str
  namespaces : List Str
  nameServers : Str
  comment : Str
deriving DecidableEq

/-- The files and rules of a machine. -/
structure Machine where
  files : FileTree Attrs
  rules : List NrptRule

/-- What a PowerShell command can do to the rules: a command, the rules before,
the exit, the rules after. -/
abbrev PowerShell := Str → List NrptRule → Except Str Bool → List NrptRule → Prop

/-- The cmdlets behave as documented, for the equality `psEq` of `-eq`:
`Where-Object` passes the rules that its condition holds of,
`Add-DnsClientNrptRule` adds one rule, `Remove-DnsClientNrptRule` removes rules
that it is passed, and `Clear-DnsClientCache` leaves the rules alone. -/
structure DocumentedPowerShell (psEq : Str → Str → Bool) (ps : PowerShell) : Prop where
  add {ip : Ipv4Addr} {tld : Str} {rules rules' : List NrptRule} {answer : Except Str Bool}
    (htld : isSafeTld tld = true) (h : ps (nrptAddPsCommand ip tld) rules answer rules') :
    rules' = rules ∨
      (∀ rule ∈ rules, (rule.namespaces.any fun ns => psEq ns ('.' :: tld)) = false) ∧
        ∃ name, rules' = rules ++ [⟨name, ['.' :: tld], ip.fmt, marker⟩]
  remove {rules rules' : List NrptRule} {answer : Except Str Bool}
    (h : ps nrptRemovePsCommand rules answer rules') :
    rules'.Sublist rules ∧ ∀ rule ∈ rules, psEq rule.comment marker = false →
      psEq rule.comment legacyInstallerMarker = false → rule ∈ rules'
  flush {rules rules' : List NrptRule} {answer : Except Str Bool}
    (h : ps clearDnsClientCache rules answer rules') : rules' = rules

/-! ## Answers -/

/-- `Answers ps m q r m'`: on machine `m` the call `q` can be answered with `r`,
leaving `m'`. -/
def Answers (ps : PowerShell) (m : Machine) : (q : Call) → Answer q → Machine → Prop
  | .spawn _ _, _, m' => m' = m
  | .powershell command, answer, m' =>
      m'.files = m.files ∧ ps command m.rules answer m'.rules
  | .readToString path, answer, m' =>
      m' = m ∧ ∀ text, answer = .ok text → m.files.read (names path) = some (utf8 text)
  | .createDirAll path, answer, m' =>
      ∃ files, FileTree.MakesDirs (names path) m.files files ∧ m' = { m with files } ∧
        (answer = .ok () → files.isDir (names path) = true)
  | .createNew path, .ok file, m' =>
      ∃ attrs files, m.files.createNew attrs (names path) = some (file, files) ∧
        m' = { m with files }
  | .createNew _, .error _, m' => m' = m
  | .writeAll file bytes, answer, m' =>
      ∃ written, written <+: bytes ∧ m' = { m with files := m.files.append file written } ∧
        (answer = .ok () → written = bytes)
  | .syncAll _, _, m' => m' = m
  | .fsWrite path bytes, answer, m' =>
      (m' = m ∧ answer ≠ .ok ()) ∨
        ∃ attrs written files, written <+: bytes ∧
          m.files.overwrite attrs (names path) written = some files ∧ m' = { m with files } ∧
          (answer = .ok () → written = bytes)
  | .rename source target, .ok _, m' =>
      ∃ files, m.files.rename (names source) (names target) = some files ∧ m' = { m with files }
  | .rename _ _, .error _, m' => m' = m
  | .removeFile path, .ok _, m' =>
      ∃ files, m.files.removeFile (names path) = some files ∧ m' = { m with files }
  | .removeFile _, .error _, m' => m' = m
  | .pathExists path, answer, m' =>
      m' = m ∧ (answer = true → m.files.isPresent (names path) = true)
  | .isDir path, answer, m' => m' = m ∧ (answer = true → m.files.isDir (names path) = true)
  | .readLink path, answer, m' =>
      m' = m ∧ ∀ target, answer = .ok target → m.files.readLink (names path) = some target
  | .readDir path, answer, m' =>
      m' = m ∧ ∀ entries, answer = .ok entries →
        ∃ place, m.files.locate true (names path) = some place ∧
          ∀ name ∈ entries, m.files (place ++ [name]) ≠ none
  | .processId, _, m' => m' = m
  | .toSocketAddrs _, _, m' => m' = m

/-! ## A machine on which no call fails -/

/-- The two rule commands, read off their quoted literals, with `-eq` as
equality up to ASCII case. -/
def referenceRules (command : Str) (rules : List NrptRule) : List NrptRule :=
  match command.splitOn '\'' with
  | [_, ns, _, _, _, nameServers, _, comment, _] =>
      if rules.any fun rule => rule.namespaces.any fun other => eqIgnoreAsciiCase other ns then rules
      else rules ++ [⟨[], [ns], nameServers, comment⟩]
  | [_, comment, _, comment', _] =>
      rules.filter fun rule =>
        !(eqIgnoreAsciiCase rule.comment comment || eqIgnoreAsciiCase rule.comment comment')
  | _ => rules

def PowerShell.reference : PowerShell :=
  fun command rules answer rules' => answer = .ok true ∧ rules' = referenceRules command rules

/-- A text splits at the quotes of its first literal. -/
theorem splitOn_psLiteral {piece literal rest : Str} (hpiece : '\'' ∉ piece)
    (hliteral : '\'' ∉ literal) :
    (piece ++ (psLiteral literal ++ rest)).splitOn '\'' =
      piece :: literal :: rest.splitOn '\'' := by
  rw [psLiteral, List.cons_append, List.splitOn_append_cons_self_of_not_mem hpiece,
    List.append_assoc, List.singleton_append, List.splitOn_append_cons_self_of_not_mem hliteral]

theorem splitOn_four_psLiterals {p₀ p₁ p₂ p₃ p₄ a b c d : Str}
    (hpieces : ∀ piece ∈ [p₀, p₁, p₂, p₃, p₄], '\'' ∉ piece)
    (hliterals : ∀ literal ∈ [a, b, c, d], '\'' ∉ literal) :
    (p₀ ++ psLiteral a ++ p₁ ++ psLiteral b ++ p₂ ++ psLiteral c ++ p₃ ++ psLiteral d ++
      p₄).splitOn '\'' = [p₀, a, p₁, b, p₂, c, p₃, d, p₄] := by
  simp only [List.append_assoc]
  rw [splitOn_psLiteral (hpieces _ (by simp)) (hliterals _ (by simp)),
    splitOn_psLiteral (hpieces _ (by simp)) (hliterals _ (by simp)),
    splitOn_psLiteral (hpieces _ (by simp)) (hliterals _ (by simp)),
    splitOn_psLiteral (hpieces _ (by simp)) (hliterals _ (by simp)),
    List.splitOn_eq_singleton (hpieces _ (by simp))]

/-- The code between the literals of the add command. -/
def nrptAddPieces : List Str :=
  ["if (-not (Get-DnsClientNrptRule | Where-Object \x7b $_.Namespace -eq ".toList,
    " \x7d)) \x7b Add-DnsClientNrptRule -Namespace ".toList, " -NameServers ".toList,
    " -Comment ".toList, " | Out-Null \x7d".toList]

/-- A list with the elements of another in its gaps. -/
def interleave {α : Type} : List α → List α → List α
  | a :: as, b :: bs => a :: b :: interleave as bs
  | as, _ => as

/-- The add command at its quotes: the namespace twice, the address and the marker,
between code that is the same for every configuration. -/
theorem splitOn_nrptAddPsCommand_eq (ip : Ipv4Addr) {tld : Str} (htld : isSafeTld tld = true) :
    (nrptAddPsCommand ip tld).splitOn '\'' =
      interleave nrptAddPieces ['.' :: tld, '.' :: tld, ip.fmt, marker] := by
  refine splitOn_four_psLiterals (by decide +kernel) fun literal hliteral => ?_
  have hns : '\'' ∉ '.' :: tld := by
    intro hmem
    rcases List.mem_cons.mp hmem with h | h
    · exact absurd h (by decide)
    · exact forall_mem_of_isSafeTld (P := fun c => c ≠ '\'') htld (by decide) _ h rfl
  simp only [List.mem_cons, List.not_mem_nil, or_false] at hliteral
  rcases hliteral with rfl | rfl | rfl | rfl
  · exact hns
  · exact hns
  · exact fun hmem => Ipv4Addr.forall_mem_fmt ip (P := fun c => c ≠ '\'') (by decide) _ hmem rfl
  · decide +kernel

theorem splitOn_nrptAddPsCommand (ip : Ipv4Addr) {tld : Str} (htld : isSafeTld tld = true) :
    ∃ p₀ p₁ p₂ p₃ p₄, (nrptAddPsCommand ip tld).splitOn '\'' =
      [p₀, '.' :: tld, p₁, '.' :: tld, p₂, ip.fmt, p₃, marker, p₄] :=
  ⟨_, _, _, _, _, splitOn_nrptAddPsCommand_eq ip htld⟩

theorem splitOn_nrptRemovePsCommand :
    nrptRemovePsCommand.splitOn '\'' =
      ["Get-DnsClientNrptRule | Where-Object \x7b $_.Comment -eq ".toList, marker,
        " -or $_.Comment -eq ".toList, legacyInstallerMarker,
        " \x7d | Remove-DnsClientNrptRule -Force".toList] := by
  decide +kernel

theorem documentedPowerShell_reference :
    DocumentedPowerShell eqIgnoreAsciiCase PowerShell.reference where
  add := by
    rintro ip tld rules rules' answer htld ⟨-, rfl⟩
    obtain ⟨p₀, p₁, p₂, p₃, p₄, hsplit⟩ := splitOn_nrptAddPsCommand ip htld
    rw [referenceRules, hsplit]
    by_cases hany : rules.any fun rule =>
        rule.namespaces.any fun other => eqIgnoreAsciiCase other ('.' :: tld)
    · exact Or.inl (if_pos hany)
    · refine Or.inr ⟨fun rule hrule => ?_, [], if_neg hany⟩
      rw [← Bool.not_eq_true]
      exact fun h => hany (List.any_eq_true.mpr ⟨rule, hrule, h⟩)
  remove := by
    rintro rules rules' answer ⟨-, rfl⟩
    rw [referenceRules, splitOn_nrptRemovePsCommand]
    refine ⟨List.filter_sublist, fun rule hrule hmarker hlegacy => ?_⟩
    exact List.mem_filter.mpr ⟨hrule, by simp [hmarker, hlegacy]⟩
  flush := by
    rintro rules rules' answer ⟨-, rfl⟩
    rfl

/-- ASCII bytes as text; other bytes are refused. -/
def asciiText (bytes : List UInt8) : Option Str :=
  if bytes.all fun b => b.toNat < 128 then some (bytes.map fun b => Char.ofNat b.toNat) else none

theorem utf8_of_asciiText {bytes : List UInt8} {text : Str} (h : asciiText bytes = some text) :
    utf8 text = bytes := by
  rw [asciiText] at h
  split_ifs at h with hascii
  cases h
  exact utf8_map_ofNat fun b hb => by simpa using List.all_eq_true.mp hascii b hb

/-- The attributes of what the tool makes. -/
def rootAttrs : Attrs := ⟨0, 0o644⟩

/-- Every call succeeds if it can: the process is privileged, commands exit with
zero, and no host name resolves. -/
def serve (m : Machine) : (q : Call) → Answer q × Machine
  | .spawn program _ =>
      (.ok ⟨true, if program = "id".toList then "0\n".toList else []⟩, m)
  | .powershell command => (.ok true, { m with rules := referenceRules command m.rules })
  | .readToString path =>
      match (m.files.read (names path)).bind asciiText with
      | some text => (.ok text, m)
      | none => (.error "not found".toList, m)
  | .createDirAll path =>
      let files := m.files.makeDirs rootAttrs (names path)
      (if files.isDir (names path) then .ok () else .error "not a directory".toList, { m with files })
  | .createNew path =>
      match m.files.createNew rootAttrs (names path) with
      | some (file, files) => (.ok file, { m with files })
      | none => (.error "file exists".toList, m)
  | .writeAll file bytes => (.ok (), { m with files := m.files.append file bytes })
  | .syncAll _ => (.ok (), m)
  | .fsWrite path bytes =>
      match m.files.overwrite rootAttrs (names path) bytes with
      | some files => (.ok (), { m with files })
      | none => (.error "not a file".toList, m)
  | .rename source target =>
      match m.files.rename (names source) (names target) with
      | some files => (.ok (), { m with files })
      | none => (.error "not renamed".toList, m)
  | .removeFile path =>
      match m.files.removeFile (names path) with
      | some files => (.ok (), { m with files })
      | none => (.error "not found".toList, m)
  | .pathExists path => (m.files.isPresent (names path), m)
  | .isDir path => (m.files.isDir (names path), m)
  | .readLink path =>
      match m.files.readLink (names path) with
      | some target => (.ok target, m)
      | none => (.error "not a link".toList, m)
  | .readDir _ => (.error "not listed".toList, m)
  | .processId => (1, m)
  | .toSocketAddrs _ => (.error "no address".toList, m)

/-- What it answers are answers of the machine. -/
theorem answers_serve (m : Machine) (q : Call) :
    Answers PowerShell.reference m q (serve m q).1 (serve m q).2 := by
  cases q with
  | spawn program args => exact rfl
  | powershell command => exact ⟨rfl, rfl, rfl⟩
  | readToString path =>
      simp only [serve]
      cases hread : (m.files.read (names path)).bind asciiText with
      | none => exact ⟨rfl, fun text h => by cases h⟩
      | some text =>
          obtain ⟨bytes, hbytes, htext⟩ := Option.bind_eq_some_iff.mp hread
          refine ⟨rfl, fun text' h => ?_⟩
          cases h
          rw [hbytes, utf8_of_asciiText htext]
  | createDirAll path =>
      refine ⟨_, FileTree.makesDirs_makeDirs m.files rootAttrs (names path), rfl, fun h => ?_⟩
      by_contra hdir
      simp only [serve, if_neg hdir] at h
      cases h
  | createNew path =>
      simp only [serve]
      cases hnew : m.files.createNew rootAttrs (names path) with
      | none => exact rfl
      | some made => exact ⟨rootAttrs, made.2, hnew, rfl⟩
  | writeAll file bytes => exact ⟨bytes, List.prefix_refl _, rfl, fun _ => rfl⟩
  | syncAll file => exact rfl
  | fsWrite path bytes =>
      simp only [serve]
      cases hwrite : m.files.overwrite rootAttrs (names path) bytes with
      | none => exact Or.inl ⟨rfl, by simp⟩
      | some files =>
          exact Or.inr ⟨rootAttrs, bytes, files, List.prefix_refl _, hwrite, rfl, fun _ => rfl⟩
  | rename source target =>
      simp only [serve]
      cases hrename : m.files.rename (names source) (names target) with
      | none => exact rfl
      | some files => exact ⟨files, hrename, rfl⟩
  | removeFile path =>
      simp only [serve]
      cases hremove : m.files.removeFile (names path) with
      | none => exact rfl
      | some files => exact ⟨files, hremove, rfl⟩
  | pathExists path => exact ⟨rfl, id⟩
  | isDir path => exact ⟨rfl, id⟩
  | readLink path =>
      simp only [serve]
      cases hlink : m.files.readLink (names path) with
      | none => exact ⟨rfl, fun target h => by cases h⟩
      | some target => exact ⟨rfl, fun target' h => by cases h; exact hlink⟩
  | readDir path => exact ⟨rfl, fun entries h => by cases h⟩
  | processId => exact rfl
  | toSocketAddrs host => exact rfl

end DigDns.OsConfig
