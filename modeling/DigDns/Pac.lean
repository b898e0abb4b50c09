import DigDns.Support.Ipv4

/-!
# The PAC file

`pac.rs`: the script that sends a browser's requests under the TLD through the
gateway.
-/

namespace DigDns.Pac

open Rust

/-- `PAC_CONTENT_TYPE`. -/
def pacContentType : Str := "application/x-ns-proxy-autoconfig".toList

/-- `generate` -/
def generate (loopbackIp : Ipv4Addr) (port : UInt16) (tld : Str) : Str :=
  let tld := toAsciiLowercase ((trim tld).dropWhile (· = '.'))
  "// dig-dns PAC - routes *.".toList ++ tld ++
    " to the local gateway, everything else DIRECT.\n".toList ++
    "// Generated with the actually-bound gateway port (".toList ++ fmtNat port.toNat ++
    ").\n".toList ++
    "function FindProxyForURL(url, host) \x7b\n".toList ++
    "  host = host.toLowerCase();\n".toList ++
    "  if (dnsDomainIs(host, \".".toList ++ tld ++ "\") || host === \"".toList ++ tld ++
    "\") \x7b\n".toList ++
    "    return \"PROXY ".toList ++ loopbackIp.fmt ++ ":".toList ++ fmtNat port.toNat ++
    "\";\n".toList ++
    "  \x7d\n".toList ++
    "  return \"DIRECT\";\n".toList ++
    "\x7d\n".toList

end DigDns.Pac
