import DigDns.Dns.Records
import DigDns.Service
import DigDns.Gateway.Integrity
import DigDns.Content.Chunks
import DigDns.Gateway.Proxy
import DigDns.Gateway.Caching
import DigDns.Gateway.Failure
import DigDns.Gateway.Ranges
import DigDns.Gateway.RangeGrammar
import DigDns.Gateway.Traversal
import DigDns.Dns.Exchange
import DigDns.Dns.Question
import DigDns.Dns.RoundTrip
import DigDns.OsConfig.LastConfigure
import DigDns.OsConfig.BrowserPolicy
import DigDns.OsConfig.Reports
import DigDns.OsConfig.PlantedLinks
import DigDns.OsConfig.Configured
import DigDns.OsConfig.Idempotent
import DigDns.Transport.Paging
import DigDns.Transport.Lossless
import DigDns.Transport.Ladder
import DigDns.State
import DigDns.Service.TakeOver
import DigDns.Service.Reinstall
import DigDns.Service.KeptInstall
import DigDns.Artifacts
import DigDns.Host.Agreement
import DigDns.Host.DotAndPort
import DigDns.Cli
import DigDns.Doctor.Running
import DigDns.Server.Scm
import DigDns.Service.Lifetime
import DigDns.Fetch.Hosted
import DigDns.Server
import DigDns.DigLocal.Relay
import DigDns.DigLocal.Target
