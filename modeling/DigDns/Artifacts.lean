import DigDns.OsConfig.Routes
import DigDns.OsConfig.Uninstall
import DigDns.Pac.Reading

/-!
# Configuration values in texts

Five texts are filled with the values of a configuration, without escapes.  Read
back by the rules of each format, every value stands where it was put and nowhere
else.
-/

namespace DigDns

open Rust OsConfig Posix

/-- What the texts of a configuration say to their readers. -/
structure InPlace (cfg : Config) : Prop where
  dropinAddress :
    (dropinServers (systemdResolvedDropin cfg.loopbackIp cfg.tld)).map Ipv4Addr.parse =
      [some cfg.loopbackIp]
  dropinDomain :
    dropinDomains (systemdResolvedDropin cfg.loopbackIp cfg.tld) = [(true, cfg.tld)]
  dnsmasq :
    (dnsmasqServers (networkmanagerDnsmasqConf cfg.loopbackIp cfg.tld)).map
      (fun server => (server.1, Ipv4Addr.parse server.2)) = [([cfg.tld], some cfg.loopbackIp)]
  nrpt :
    (nrptAddPsCommand cfg.loopbackIp cfg.tld).splitOn '\'' =
      interleave nrptAddPieces ['.' :: cfg.tld, '.' :: cfg.tld, cfg.loopbackIp.fmt, marker]
  resolverDir : parent (macosResolverPath cfg.tld) = some "/etc/resolver".toList
  resolverName : fileName (macosResolverPath cfg.tld) = some cfg.tld
  resolverNames : names (macosResolverPath cfg.tld) = ["etc".toList, "resolver".toList, cfg.tld]
  pac (port : UInt16) :
    Script.marks (Pac.generate cfg.loopbackIp port cfg.tld) = some
      [.comment (Pac.routesComment cfg.tld), .comment (Pac.portComment port),
        .literal ('.' :: cfg.tld), .literal cfg.tld,
        .literal (Pac.gatewayProxy cfg.loopbackIp port), .literal "DIRECT".toList]

/-- No value of a valid configuration escapes its place. -/
theorem artifacts_inPlace {cfg : Config} (h : cfg.validate = .ok ()) : InPlace cfg := by
  have htld : isSafeTld cfg.tld = true := ((Config.validate_eq_ok_iff cfg).mp h).tld
  obtain ⟨hservers, hdomains⟩ := dropin_systemdResolvedDropin cfg.loopbackIp htld
  have hdnsmasq := dnsmasqServers_networkmanagerDnsmasqConf cfg.loopbackIp htld
  have hip : Ipv4Addr.parse cfg.loopbackIp.fmt = some cfg.loopbackIp :=
    Ipv4Addr.parse_fmt cfg.loopbackIp
  refine ⟨?_, hdomains, ?_, splitOn_nrptAddPsCommand_eq cfg.loopbackIp htld,
    parent_macosResolverPath htld, fileName_macosResolverPath htld,
    names_macosResolverPath htld, fun port => Pac.marks_generate cfg.loopbackIp port htld⟩
  · rw [hservers, List.map_singleton, hip]
  · rw [hdnsmasq, List.map_singleton, hip]

/-- Another address and TLD than the default ones. -/
theorem artifacts_inPlace_nine :
    InPlace { Config.default with loopbackIp := ⟨127, 0, 0, 9⟩, tld := "d-9".toList } :=
  artifacts_inPlace (by decide +kernel)

end DigDns
