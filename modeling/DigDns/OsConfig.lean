import DigDns.Config
import DigDns.Support.FileTree
import DigDns.Support.Interaction

/-!
# Resolver wiring

`os_config.rs`: `configure-os` and `unconfigure-os` as plans, lists of steps
that depend on the system, the resolver and the configuration, and as programs
that carry a plan out through calls of the system.  What the calls do is said
in `OsConfig.Machine`; a program only sees their answers.
-/

namespace DigDns.OsConfig

open Rust Interaction

/-- `MARKER`. -/
def marker : Str := "managed by dig-dns configure-os".toList

/-- `LEGACY_INSTALLER_MARKER`. -/
def legacyInstallerMarker : Str := "managed by dig-installer (dig-dns, task #177)".toList

/-! ## Artifacts -/

/-- `LINUX_RESOLVED_DROPIN`. -/
def linuxResolvedDropin : Str := "/etc/systemd/resolved.conf.d/dig.conf".toList

/-- `LINUX_NM_DNSMASQ_CONF`. -/
def linuxNmDnsmasqConf : Str := "/etc/NetworkManager/dnsmasq.d/dig.conf".toList

/-- `LINUX_CHROME_POLICY`. -/
def linuxChromePolicy : Str := "/etc/opt/chrome/policies/managed/dig-dns.json".toList

/-- `LINUX_CHROMIUM_POLICY`. -/
def linuxChromiumPolicy : Str := "/etc/chromium/policies/managed/dig-dns.json".toList

/-- `MACOS_LO0_PLIST`. -/
def macosLo0Plist : Str := "/Library/LaunchDaemons/net.dignetwork.dig-dns-lo0.plist".toList

/-- `MACOS_LO0_LABEL`. -/
def macosLo0Label : Str := "net.dignetwork.dig-dns-lo0".toList

/-- `MACOS_MANAGED_PREFS_DIR`. -/
def macosManagedPrefsDir : Str := "/Library/Managed Preferences".toList

/-- `MACOS_CHROME_PLIST`. -/
def macosChromePlist : Str := "/Library/Managed Preferences/com.google.Chrome.plist".toList

/-- `WIN_CHROME_POLICY_KEY`. -/
def winChromePolicyKey : Str := "SOFTWARE\\Policies\\Google\\Chrome".toList

/-- `WIN_EDGE_POLICY_KEY`. -/
def winEdgePolicyKey : Str := "SOFTWARE\\Policies\\Microsoft\\Edge".toList

/-- `WIN_POLICY_DOH_NAME`. -/
def winPolicyDohName : Str := "DnsOverHttpsMode".toList

/-- `WIN_POLICY_BUILTIN_NAME`. -/
def winPolicyBuiltinName : Str := "BuiltInDnsClientEnabled".toList

/-- `WIN_POLICY_MARKER`. -/
def winPolicyMarker : Str := "DigDnsManaged".toList

/-- `WIN_LEGACY_POLICY_MARKER`. -/
def winLegacyPolicyMarker : Str := "DigInstallerManaged".toList

/-- `macos_resolver_path` -/
def macosResolverPath (tld : Str) : Str := "/etc/resolver/".toList ++ tld

/-! ## Contents -/

/-- `systemd_resolved_dropin` -/
def systemdResolvedDropin (ip : Ipv4Addr) (tld : Str) : Str :=
  "# ".toList ++ marker ++ "\n[Resolve]\nDNS=".toList ++ ip.fmt ++ "\nDomains=~".toList ++ tld ++
    "\n".toList

/-- `networkmanager_dnsmasq_conf` -/
def networkmanagerDnsmasqConf (ip : Ipv4Addr) (tld : Str) : Str :=
  "# ".toList ++ marker ++ "\nserver=/".toList ++ tld ++ "/".toList ++ ip.fmt ++ "\n".toList

/-- `resolver_file_content` -/
def resolverFileContent (ip : Ipv4Addr) : Str :=
  "# ".toList ++ marker ++ "\nnameserver ".toList ++ ip.fmt ++ "\n".toList

/-- `CLEAR_DNS_CLIENT_CACHE`. -/
def clearDnsClientCache : Str := "Clear-DnsClientCache".toList

/-- A single-quoted PowerShell literal. -/
def psLiteral (s : Str) : Str := '\'' :: (s ++ ['\''])

/-- `nrpt_add_ps_command` -/
def nrptAddPsCommand (ip : Ipv4Addr) (tld : Str) : Str :=
  let ns := '.' :: tld
  "if (-not (Get-DnsClientNrptRule | Where-Object \x7b $_.Namespace -eq ".toList ++ psLiteral ns ++
    " \x7d)) \x7b Add-DnsClientNrptRule -Namespace ".toList ++ psLiteral ns ++
    " -NameServers ".toList ++ psLiteral ip.fmt ++ " -Comment ".toList ++ psLiteral marker ++
    " | Out-Null \x7d".toList

/-- `nrpt_remove_ps_command` -/
def nrptRemovePsCommand : Str :=
  "Get-DnsClientNrptRule | Where-Object \x7b $_.Comment -eq ".toList ++ psLiteral marker ++
    " -or $_.Comment -eq ".toList ++ psLiteral legacyInstallerMarker ++
    " \x7d | Remove-DnsClientNrptRule -Force".toList

/-- The lines before the body of a property list. -/
def plistHead : Str :=
  "<?xml version=\"1.0\" encoding=\"UTF-8\"?>\n".toList ++
    "<!DOCTYPE plist PUBLIC \"-//Apple//DTD PLIST 1.0//EN\" ".toList ++
    "\"http://www.apple.com/DTDs/PropertyList-1.0.dtd\">\n".toList ++
    "<plist version=\"1.0\">\n<!-- ".toList ++ marker ++ " -->\n<dict>\n".toList

/-- `launchd_lo0_alias_plist` -/
def launchdLo0AliasPlist (ip : Ipv4Addr) : Str :=
  plistHead ++
    "\t<key>Label</key>\n\t<string>".toList ++ macosLo0Label ++ "</string>\n".toList ++
    "\t<key>ProgramArguments</key>\n\t<array>\n".toList ++
    "\t\t<string>/sbin/ifconfig</string>\n\t\t<string>lo0</string>\n".toList ++
    "\t\t<string>alias</string>\n\t\t<string>".toList ++ ip.fmt ++ "</string>\n".toList ++
    "\t\t<string>up</string>\n\t</array>\n".toList ++
    "\t<key>RunAtLoad</key>\n\t<true/>\n\t<key>KeepAlive</key>\n\t<false/>\n".toList ++
    "</dict>\n</plist>\n".toList

/-- `chrome_policy_json` -/
def chromePolicyJson : Str :=
  "\x7b\"BuiltInDnsClientEnabled\":false,\"DnsOverHttpsMode\":\"off\"\x7d".toList

/-- `chrome_managed_plist` -/
def chromeManagedPlist : Str :=
  plistHead ++
    "\t<key>DnsOverHttpsMode</key>\n\t<string>off</string>\n".toList ++
    "\t<key>BuiltInDnsClientEnabled</key>\n\t<false/>\n</dict>\n</plist>\n".toList

/-- `HKLM\<key>`. -/
def hklm (key : Str) : Str := "HKLM\\".toList ++ key

/-- `reg_query_key_args` -/
def regQueryKeyArgs (key : Str) : List Str := ["query".toList, hklm key]

/-- `reg_query_value_args` -/
def regQueryValueArgs (key value : Str) : List Str :=
  ["query".toList, hklm key, "/v".toList, value]

/-- The command line of one `reg add`. -/
def regAddArgs (key name kind data : Str) : List Str :=
  ["add".toList, hklm key, "/v".toList, name, "/t".toList, kind, "/d".toList, data, "/f".toList]

/-- `reg_add_policy_args` -/
def regAddPolicyArgs (key : Str) : List (List Str) :=
  [regAddArgs key winPolicyDohName "REG_SZ".toList "off".toList,
    regAddArgs key winPolicyBuiltinName "REG_DWORD".toList "0".toList,
    regAddArgs key winPolicyMarker "REG_DWORD".toList "1".toList]

/-- `reg_delete_value_args` -/
def regDeleteValueArgs (key value : Str) : List Str :=
  ["delete".toList, hklm key, "/v".toList, value, "/f".toList]

/-- `content_is_ours` -/
def contentIsOurs (content : Str) (ourIp : Ipv4Addr) : Bool :=
  strContains content marker || strContains content legacyInstallerMarker ||
    trim content = "nameserver ".toList ++ ourIp.fmt

/-! ## Systems and resolvers -/

/-- `std::env::consts::OS`. -/
inductive Os
  | linux
  | macos
  | windows
  | other (name : Str)
deriving DecidableEq

/-- The name of a system. -/
def Os.name : Os → Str
  | linux => "linux".toList
  | macos => "macos".toList
  | windows => "windows".toList
  | other name => name

/-- `is_supported` -/
def Os.isSupported : Os → Bool
  | linux | macos | windows => true
  | other _ => false

/-- Which resolver owns `/etc/resolv.conf` on Linux. -/
inductive ResolvOwner
  | systemdResolved
  | networkManagerDnsmasq
  | unknown
deriving DecidableEq

/-- `ResolvOwner::label` -/
def ResolvOwner.label : ResolvOwner → Str
  | systemdResolved => "systemd-resolved".toList
  | networkManagerDnsmasq => "networkmanager-dnsmasq".toList
  | unknown => "unknown".toList

/-- `detect_resolv_owner` -/
def detectResolvOwner (linkTarget : Option Str) (nmDnsmasqDirExists : Bool) : ResolvOwner :=
  if linkTarget.any fun target => strContains target "systemd".toList then .systemdResolved
  else if nmDnsmasqDirExists then .networkManagerDnsmasq
  else .unknown

/-! ## Plans -/

/-- Which list of a report a step goes to. -/
inductive Bucket
  | applied
  | removed
deriving DecidableEq

/-- One step of a plan. -/
inductive Step
  | write (path content : Str)
  | removeOurs (path : Str)
  | exec (program : Str) (args : List Str)
  | ps (command label : Str) (bucket : Bucket)
  | psExec (command : Str)
  | note (msg : Str)
deriving DecidableEq

/-- `exec` -/
def exec (program : String) (args : List Str) : Step := .exec program.toList args

/-- `system/<label>`, as `launchctl` names the daemon. -/
def launchdTarget : Str := "system/".toList ++ macosLo0Label

/-- `configure_resolver_steps` -/
def configureResolverSteps (os : Os) (owner : ResolvOwner) (ip : Ipv4Addr) (tld : Str) :
    List Step :=
  match os with
  | .linux =>
      match owner with
      | .systemdResolved => [
          .write linuxResolvedDropin (systemdResolvedDropin ip tld),
          exec "systemctl" ["reload-or-restart".toList, "systemd-resolved".toList],
          exec "resolvectl" ["flush-caches".toList]]
      | .networkManagerDnsmasq => [
          .write linuxNmDnsmasqConf (networkmanagerDnsmasqConf ip tld),
          exec "systemctl" ["reload".toList, "NetworkManager".toList]]
      | .unknown => [.note ("no systemd-resolved/NetworkManager-dnsmasq resolver detected; ".toList ++
          "/etc/resolv.conf left untouched — browsers reach *.dig via the PAC (Path B)".toList)]
  | .macos => [
      exec "ifconfig" ["lo0".toList, "alias".toList, ip.fmt, "up".toList],
      .write macosLo0Plist (launchdLo0AliasPlist ip),
      exec "launchctl" ["bootout".toList, launchdTarget],
      exec "launchctl" ["bootstrap".toList, "system".toList, macosLo0Plist],
      exec "launchctl" ["enable".toList, launchdTarget],
      .write (macosResolverPath tld) (resolverFileContent ip),
      exec "dscacheutil" ["-flushcache".toList],
      exec "killall" ["-HUP".toList, "mDNSResponder".toList]]
  | .windows => [
      .ps (nrptAddPsCommand ip tld) ('.' :: (tld ++ " NRPT rule".toList)) .applied,
      .psExec clearDnsClientCache]
  | .other _ => []

/-- `unconfigure_resolver_steps` -/
def unconfigureResolverSteps (os : Os) (ip : Ipv4Addr) (tld : Str) : List Step :=
  match os with
  | .linux => [
      .removeOurs linuxResolvedDropin,
      exec "systemctl" ["reload-or-restart".toList, "systemd-resolved".toList],
      exec "resolvectl" ["flush-caches".toList],
      .removeOurs linuxNmDnsmasqConf,
      exec "systemctl" ["reload".toList, "NetworkManager".toList]]
  | .macos => [
      exec "launchctl" ["bootout".toList, launchdTarget],
      .removeOurs macosLo0Plist,
      exec "ifconfig" ["lo0".toList, "-alias".toList, ip.fmt],
      .removeOurs (macosResolverPath tld),
      exec "dscacheutil" ["-flushcache".toList],
      exec "killall" ["-HUP".toList, "mDNSResponder".toList]]
  | .windows => [
      .ps nrptRemovePsCommand ('.' :: (tld ++ " NRPT rule".toList)) .removed,
      .psExec clearDnsClientCache]
  | .other _ => []

/-! ## Reports -/

/-- `OsConfigReport`. -/
structure Report where
  action : Str
  os : Str
  ok : Bool
  needsElevation : Bool
  applied : List Str
  removed : List Str
  resolver : Option Str
  notes : List Str
  activated : Bool
  rebootRequired : Bool
  rebootReason : Option Str
deriving DecidableEq

namespace Report

/-- `OsConfigReport::started` -/
def started (os : Os) (action : Str) : Report where
  action := action
  os := os.name
  ok := false
  needsElevation := false
  applied := []
  removed := []
  resolver := none
  notes := []
  activated := false
  rebootRequired := false
  rebootReason := none

/-- `OsConfigReport::note` -/
def note (r : Report) (msg : Str) : Report := { r with notes := r.notes ++ [msg] }

/-- `OsConfigReport::not_elevated` -/
def notElevated (os : Os) (action message : Str) : Report :=
  { (started os action).note message with needsElevation := true }

/-- `OsConfigReport::unsupported` -/
def unsupported (os : Os) (action : Str) : Report :=
  (started os action).note (action ++ " is not supported on this platform (".toList ++ os.name ++
    ")".toList)

/-- `Bucket::record` -/
def record (r : Report) (bucket : Bucket) (label : Str) : Report :=
  match bucket with
  | .applied => { r with applied := r.applied ++ [label] }
  | .removed => { r with removed := r.removed ++ [label] }

end Report

/-! ## Calls -/

/-- How a command ended. -/
structure Exit where
  success : Bool
  stdout : Str
deriving DecidableEq

/-- `std::net::IpAddr`. -/
inductive IpAddr
  | v4 (ip : Ipv4Addr)
  | v6 (segments : List UInt16)
deriving DecidableEq

/-- The calls of the system.  `spawn` and `powershell` name a tool as the source
does; the open file that `createNew` returns is the place of its entry. -/
inductive Call
  | spawn (program : Str) (args : List Str)
  | powershell (command : Str)
  | readToString (path : Str)
  | createDirAll (path : Str)
  | createNew (path : Str)
  | writeAll (file : Posix.Names) (bytes : List UInt8)
  | syncAll (file : Posix.Names)
  | fsWrite (path : Str) (bytes : List UInt8)
  | rename (source target : Str)
  | removeFile (path : Str)
  | pathExists (path : Str)
  | isDir (path : Str)
  | readLink (path : Str)
  | readDir (path : Str)
  | processId
  | toSocketAddrs (host : Str)

/-- The answers to the calls; an error comes with its text. -/
abbrev Answer : Call → Type
  | .spawn _ _ => Except Str Exit
  | .powershell _ => Except Str Bool
  | .readToString _ => Except Str Str
  | .createDirAll _ => Except Str Unit
  | .createNew _ => Except Str Posix.Names
  | .writeAll _ _ => Except Str Unit
  | .syncAll _ => Except Str Unit
  | .fsWrite _ _ => Except Str Unit
  | .rename _ _ => Except Str Unit
  | .removeFile _ => Except Str Unit
  | .pathExists _ => Bool
  | .isDir _ => Bool
  | .readLink _ => Except Str Str
  | .readDir _ => Except Str (List Str)
  | .processId => Nat
  | .toSocketAddrs _ => Except Str (List IpAddr)

/-- A program that calls the system. -/
abbrev OsProg := Prog Answer

/-- Make a call. -/
def call (q : Call) : OsProg (Answer q) := .ask q .ret

/-! ## Files -/

/-- `Path::parent`, for a path without trailing or doubled slashes. -/
def parent (path : Str) : Option Str :=
  match rsplitOnce '/' path with
  | some ([], []) => none
  | some ([], _) => some "/".toList
  | some (dir, _) => some dir
  | none => if path = [] then none else some []

/-- `Path::file_name`, for such a path. -/
def fileName (path : Str) : Option Str :=
  let name := rsplitNext '/' path
  if name = [] ∨ name = ['.', '.'] then none else some name

/-- `Path::join`, with a name. -/
def join (dir name : Str) : Str :=
  if dir = [] ∨ dir.getLast? = some '/' then dir ++ name else dir ++ '/' :: name

/-- The temporary file next to a path. -/
def tempPath (dir name : Str) (pid : Nat) : Str :=
  join dir ('.' :: (name ++ ".dig-dns.".toList ++ fmtNat pid ++ ".tmp".toList))

/-- Create a new file and write it out. -/
def writeNew (tmp content : Str) : OsProg (Except Str Unit) := do
  match ← call (.createNew tmp) with
  | .error e => return .error e
  | .ok file =>
      match ← call (.writeAll file (utf8 content)) with
      | .error e => return .error e
      | .ok _ => call (.syncAll file)

/-- `atomic_write` -/
def atomicWrite (os : Os) (path content : Str) : OsProg (Except Str Unit) :=
  if os = .windows then do
    let written ← call (.fsWrite path (utf8 content))
    return written.mapError fun e => "write ".toList ++ path ++ ": ".toList ++ e
  else
    match parent path with
    | none => return .error (path ++ ": no parent directory".toList)
    | some dir =>
    match fileName path with
    | none => return .error (path ++ ": no file name".toList)
    | some name => do
        let pid ← call .processId
        let tmp := tempPath dir name pid
        match ← writeNew tmp content with
        | .error e => return .error ("write ".toList ++ tmp ++ ": ".toList ++ e)
        | .ok _ =>
            match ← call (.rename tmp path) with
            | .ok _ => return .ok ()
            | .error e => do
                let _ ← call (.removeFile tmp)
                return .error ("install ".toList ++ path ++ ": ".toList ++ e)

/-- The parent of a path, with its own, is made if it is missing. -/
def makeParent (path : Str) : OsProg (Except Str Unit) :=
  match parent path with
  | some dir => call (.createDirAll dir)
  | none => return .ok ()

/-- `write_if_changed` -/
def writeIfChanged (os : Os) (path content : Str) : OsProg (Except Str Bool) := do
  let existing ← call (.readToString path)
  if existing.toOption = some content then return .ok false
  else
    match ← makeParent path with
    | .error e =>
        return .error ("create ".toList ++ (parent path).getD [] ++ ": ".toList ++ e)
    | .ok _ =>
        let written ← atomicWrite os path content
        return written.map fun _ => true

/-- `file_is_ours` -/
def fileIsOurs (path : Str) (ourIp : Ipv4Addr) : OsProg Bool := do
  let content ← call (.readToString path)
  return content.toOption.any fun c => contentIsOurs c ourIp

/-- `remove_if_ours` -/
def removeIfOurs (path : Str) (ourIp : Ipv4Addr) : OsProg (Except Str Bool) := do
  if ← fileIsOurs path ourIp then
    match ← call (.removeFile path) with
    | .ok _ => return .ok true
    | .error e => return .error ("remove ".toList ++ path ++ ": ".toList ++ e)
  else return .ok false

/-! ## Commands -/

/-- `run` -/
def run (cmd : Str) (args : List Str) : OsProg (Except Str Unit) := do
  match ← call (.spawn cmd args) with
  | .error e => return .error ("spawn ".toList ++ cmd ++ ": ".toList ++ e)
  | .ok exit =>
      if exit.success then return .ok ()
      else return .error (cmd ++ " exited non-zero".toList)

/-- `run_ps` -/
def runPs (command : Str) : OsProg (Except Str Unit) := do
  match ← call (.powershell command) with
  | .error e => return .error ("spawn powershell: ".toList ++ e)
  | .ok success =>
      if success then return .ok ()
      else return .error "powershell exited non-zero".toList

/-- `reg` -/
def reg (args : List Str) : OsProg (Except Str Unit) := run "reg".toList args

/-- `reg_present` -/
def regPresent (args : List Str) : OsProg Bool := do
  return (← run "reg".toList args).isOk

/-- `is_elevated` -/
def isElevated (os : Os) : OsProg Bool := do
  if os = .windows then
    match ← call (.spawn "net".toList ["session".toList]) with
    | .ok exit => return exit.success
    | .error _ => return false
  else
    match ← call (.spawn "id".toList ["-u".toList]) with
    | .ok exit => return trim exit.stdout = "0".toList
    | .error _ => return false

/-- `elevation_message` -/
def elevationMessage (os : Os) : Str :=
  if os = .windows then
    "configuring OS-level *.dig resolution requires an elevated (Administrator) console; ".toList ++
      "re-run in a terminal opened with \"Run as administrator\"".toList
  else "configuring OS-level *.dig resolution requires root; re-run with sudo".toList

/-! ## Carrying a plan out -/

/-- One round of the loop of `execute`. -/
def executeStep (os : Os) (ourIp : Ipv4Addr) (r : Report) : Step → OsProg Report
  | .write path content => do
      match ← writeIfChanged os path content with
      | .ok _ => return r.record .applied path
      | .error e => return r.note (path ++ " not written: ".toList ++ e)
  | .removeOurs path => do
      match ← removeIfOurs path ourIp with
      | .ok true => return r.record .removed path
      | .ok false => return r
      | .error e => return r.note (path ++ " not removed: ".toList ++ e)
  | .exec program args => do
      let _ ← run program args
      return r
  | .ps command label bucket => do
      match ← runPs command with
      | .ok _ => return r.record bucket label
      | .error e => return r.note (label ++ ": ".toList ++ e)
  | .psExec command => do
      let _ ← runPs command
      return r
  | .note msg => return r.note msg

/-- `execute` -/
def execute (os : Os) (action : Str) (ourIp : Ipv4Addr) (resolver : Option Str)
    (steps : List Step) : OsProg Report :=
  steps.foldlM (executeStep os ourIp) { Report.started os action with resolver }

/-! ## Browser policies -/

/-- One file of the Linux policy. -/
def applyLinuxPolicy (r : Report) (path : Str) : OsProg Report := do
  match ← writeIfChanged .linux path chromePolicyJson with
  | .ok _ => return r.record .applied path
  | .error e => return r.note (path ++ " not written: ".toList ++ e)

/-- An entry that is a Chrome policy of somebody else. -/
def isForeignPref (name path : Str) (ourIp : Ipv4Addr) : OsProg Bool := do
  if strContains name "com.google.Chrome".toList then return !(← fileIsOurs path ourIp)
  else return false

/-- A directory that holds such a policy. -/
def hasForeignPref (path : Str) (ourIp : Ipv4Addr) : OsProg Bool := do
  let nested := join path "com.google.Chrome.plist".toList
  if ← call (.isDir path) then
    if ← call (.pathExists nested) then return !(← fileIsOurs nested ourIp)
    else return false
  else return false

/-- The loop of `existing_chrome_managed_policy`. -/
def scanManagedPrefs (ourIp : Ipv4Addr) : List Str → OsProg Bool
  | [] => return false
  | name :: names => do
      let path := join macosManagedPrefsDir name
      if ← isForeignPref name path ourIp then return true
      else if ← hasForeignPref path ourIp then return true
      else scanManagedPrefs ourIp names

/-- `existing_chrome_managed_policy` -/
def existingChromeManagedPolicy (ourIp : Ipv4Addr) : OsProg Bool := do
  match ← call (.readDir macosManagedPrefsDir) with
  | .error _ => return false
  | .ok entries => scanManagedPrefs ourIp entries

/-- `apply_macos_browser_policy` -/
def applyMacosBrowserPolicy (ourIp : Ipv4Addr) (r : Report) : OsProg Report := do
  if ← existingChromeManagedPolicy ourIp then
    return r.note "Chrome policy left untouched (an existing managed policy was found)".toList
  else
    let written ← writeIfChanged .macos macosChromePlist chromeManagedPlist
    let r := match written with
      | .ok _ => r.record .applied macosChromePlist
      | .error e => r.note ("Chrome managed policy not written: ".toList ++ e)
    return r.note ("Chrome enterprise policy on macOS is normally MDM-provisioned; if the ".toList ++
      "DoH-off policy does not take effect, set it via MDM (see the runbook)".toList)

/-- Run `reg` commands until one fails. -/
def regAll : List (List Str) → OsProg (Except Str Unit)
  | [] => return .ok ()
  | args :: rest => do
      match ← reg args with
      | .error e => return .error e
      | .ok _ => regAll rest

/-- Whether one of the two markers is under a key. -/
def regMarked (key : Str) : OsProg Bool := do
  if ← regPresent (regQueryValueArgs key winPolicyMarker) then return true
  else regPresent (regQueryValueArgs key winLegacyPolicyMarker)

/-- `apply_windows_browser_policy` -/
def applyWindowsBrowserPolicy (key : Str) : OsProg (Except Str Bool) := do
  let keyExists ← regPresent (regQueryKeyArgs key)
  let ours ← regMarked key
  if keyExists && !ours then return .ok false
  else
    let added ← regAll (regAddPolicyArgs key)
    return added.map fun _ => true

/-- `remove_windows_browser_policy` -/
def removeWindowsBrowserPolicy (key : Str) : OsProg (Except Str Bool) := do
  if ← regMarked key then
    let _ ← reg (regDeleteValueArgs key winPolicyDohName)
    let _ ← reg (regDeleteValueArgs key winPolicyBuiltinName)
    let _ ← reg (regDeleteValueArgs key winPolicyMarker)
    let _ ← reg (regDeleteValueArgs key winLegacyPolicyMarker)
    return .ok true
  else return .ok false

/-- The browsers with a policy key. -/
def winBrowsers : List (Str × Str) :=
  [("Chrome".toList, winChromePolicyKey), ("Edge".toList, winEdgePolicyKey)]

/-- The label of a registry policy. -/
def winPolicyLabel (browser : Str) : Str := browser ++ " HKLM DoH policy".toList

/-- One browser of the Windows policy. -/
def applyWindowsPolicy (r : Report) (browser : Str × Str) : OsProg Report := do
  match ← applyWindowsBrowserPolicy browser.2 with
  | .ok true => return r.record .applied (winPolicyLabel browser.1)
  | .ok false => return r.note (browser.1 ++
      " policy left untouched (an existing org policy manages it)".toList)
  | .error e => return r.note (browser.1 ++ " policy not applied: ".toList ++ e)

/-- `apply_browser_policy` -/
def applyBrowserPolicy (os : Os) (ourIp : Ipv4Addr) (r : Report) : OsProg Report :=
  match os with
  | .linux => do
      let r ← [linuxChromePolicy, linuxChromiumPolicy].foldlM applyLinuxPolicy r
      return r.note "Chrome/Chromium managed DoH-off policy applied".toList
  | .macos => applyMacosBrowserPolicy ourIp r
  | .windows => winBrowsers.foldlM applyWindowsPolicy r
  | .other _ => return r

/-- One file of the Linux policy: it is removed on sight. -/
def removeLinuxPolicy (r : Report) (path : Str) : OsProg Report := do
  if ← call (.pathExists path) then
    match ← call (.removeFile path) with
    | .ok _ => return r.record .removed path
    | .error _ => return r
  else return r

/-- One browser of the Windows policy. -/
def removeWindowsPolicy (r : Report) (browser : Str × Str) : OsProg Report := do
  match ← removeWindowsBrowserPolicy browser.2 with
  | .ok true => return r.record .removed (winPolicyLabel browser.1)
  | _ => return r

/-- `remove_browser_policy` -/
def removeBrowserPolicy (os : Os) (ourIp : Ipv4Addr) (r : Report) : OsProg Report :=
  match os with
  | .linux => [linuxChromePolicy, linuxChromiumPolicy].foldlM removeLinuxPolicy r
  | .macos => do
      match ← removeIfOurs macosChromePlist ourIp with
      | .ok true => return r.record .removed macosChromePlist
      | _ => return r
  | .windows => winBrowsers.foldlM removeWindowsPolicy r
  | .other _ => return r

/-! ## The two subcommands -/

/-- `detect_resolv_owner_live` -/
def detectResolvOwnerLive : OsProg ResolvOwner := do
  let linkTarget ← call (.readLink "/etc/resolv.conf".toList)
  let nmDir ← call (.isDir "/etc/NetworkManager/dnsmasq.d".toList)
  return detectResolvOwner linkTarget.toOption nmDir

/-- `reboot_reason` -/
def rebootReason (os : Os) : Str :=
  let how := match os with
    | .windows => "the NRPT split-DNS rule".toList
    | .macos => "the /etc/resolver split-DNS config".toList
    | .linux => "the systemd-resolved/NetworkManager split-DNS config".toList
    | .other _ => "the split-DNS config".toList
  "restart to activate .dig name resolution — the OS resolver has not yet picked up ".toList ++ how

/-- `apply_activation_result` -/
def applyActivationResult (r : Report) (os : Os) (wired activated : Bool) : Report :=
  let r := { r with activated }
  if wired && !activated then
    { r with rebootRequired := true, rebootReason := some (rebootReason os) }
  else r

/-- `verify_os_routing`, with the pass condition of `evaluate_os_routing`. -/
def verifyOsRouting (config : Config) : OsProg Bool := do
  let resolved ← call (.toSocketAddrs ("configure-probe.".toList ++ config.tld ++ ":0".toList))
  return (resolved.toOption.getD []).contains (.v4 config.loopbackIp)

/-- `configure` -/
def configure (os : Os) (config : Config) (browserPolicy : Bool) : OsProg Report := do
  if !(← isElevated os) then
    return .notElevated os "configure-os".toList (elevationMessage os)
  else if !os.isSupported then return .unsupported os "configure-os".toList
  else
    let owner ← (if os = .linux then detectResolvOwnerLive else pure .unknown)
    let resolver := if os = .linux then some owner.label else none
    let r ← execute os "configure-os".toList config.loopbackIp resolver
      (configureResolverSteps os owner config.loopbackIp config.tld)
    let wired := !r.applied.isEmpty
    let r ← (if browserPolicy then applyBrowserPolicy os config.loopbackIp r else pure r)
    let activated ← (if wired then verifyOsRouting config else pure false)
    return { applyActivationResult r os wired activated with ok := true }

/-- `note_if_nothing_removed` -/
def noteIfNothingRemoved (r : Report) : Report :=
  if r.removed.isEmpty then
    r.note "nothing to remove (no dig-dns OS resolver config found)".toList
  else r

/-- `unconfigure` -/
def unconfigure (os : Os) (config : Config) : OsProg Report := do
  if !(← isElevated os) then
    return .notElevated os "unconfigure-os".toList (elevationMessage os)
  else if !os.isSupported then return .unsupported os "unconfigure-os".toList
  else
    let r ← execute os "unconfigure-os".toList config.loopbackIp none
      (unconfigureResolverSteps os config.loopbackIp config.tld)
    let r ← removeBrowserPolicy os config.loopbackIp r
    return noteIfNothingRemoved { r with ok := true }

end DigDns.OsConfig
