import Opnsense.OptionalKeys
import Opnsense.Singleton

namespace Opnsense
open Interaction

/-- `normalize_multi_select` -/
def normalizeMultiSelect : Json → String
  | .arr xs => ",".intercalate (xs.map pyStr)
  | .null => ""
  | v => pyStr v

/-- `if field in params: params[field] = normalize_multi_select(params[field])` -/
def normalizeField (params : Obj) (field : String) : Obj :=
  if params.has field then
    params.set field (.str (normalizeMultiSelect (params.getD field .null)))
  else params

/-- Over all multi-select fields of a manager. -/
def normalizeFields (fields : List String) (params : Obj) : Obj :=
  fields.foldl normalizeField params

/-- A singleton class with an `ensure` that prepares its parameters. -/
structure SettingsManager where
  manager : BaseSingletonManager
  prepare : String → Obj → Obj := fun _ params => params

namespace SettingsManager

def ensure (c : SettingsManager) (state : String) (params : Obj) (checkMode : Bool := false) :
    M EnsureResult :=
  c.manager.ensure state (c.prepare state params) checkMode

end SettingsManager

/-- The fields of one type, in their order. -/
def each (spec : FieldSpec) (names : List String) : List (String × FieldSpec) :=
  names.map fun name => (name, spec)

variable (diffEngine : DiffEngine)

def UbSettingsManager : SettingsManager where
  manager :=
    { className := "UbSettingsManager", endpoint := "unbound/settings", payloadKey := "unbound"
      sectionKey := some "general", applyEndpoint := some "unbound/service/reconfigure"
      applyTimeout := some 60
      validators :=
        each boolStrField ["enabled", "stats", "dnssec", "dns64", "noarecords", "regdhcp",
            "regdhcpstatic", "noreglladdr6", "noregrecords", "txtsupport", "cacheflush",
            "safesearch", "enable_wpad"] ++
          [("port", strField (some 5)),
            ("dns64prefix", strField (some 64)),
            ("regdhcpdomain", strField (some 255)),
            ("active_interface", strField (some 255)),
            ("outgoing_interface", strField (some 255)),
            ("local_zone_type", enumField ["always_nxdomain", "always_refuse",
              "always_transparent", "deny", "inform", "inform_deny", "nodefault", "refuse",
              "static", "transparent", "typetransparent"])]
      diffEngine, registry := validatorRegistry }
  prepare _ := normalizeFields ["active_interface", "outgoing_interface"]

def DnscryptProxyGeneralManager : SettingsManager where
  manager :=
    { className := "DnscryptProxyGeneralManager", endpoint := "dnscryptproxy/general"
      payloadKey := "general", applyEndpoint := some "dnscryptproxy/service/reconfigure"
      applyTimeout := some 60
      validators :=
        each boolStrField ["enabled", "allowprivileged", "block_ipv6", "cache",
            "dnscrypt_ephemeral_keys", "dnscrypt_servers", "doh_servers", "force_tcp",
            "ipv4_servers", "ipv6_servers", "odoh_servers", "query_logs", "require_dnssec",
            "require_nofilter", "require_nolog", "tls_disable_session_tickets"] ++
          each (strField (some 10)) ["cache_max_ttl", "cache_min_ttl", "cache_neg_max_ttl",
            "cache_neg_min_ttl", "cache_size", "cert_refresh_delay", "keepalive", "max_clients",
            "timeout"] ++
          each (strField (some 255)) ["fallback_resolver", "proxy"] ++
          each (strField (some 1024))
            ["listen_addresses", "serverlist", "disabled_serverlist", "relaylist"]
      diffEngine, registry := validatorRegistry }
  prepare _ :=
    normalizeFields ["listen_addresses", "serverlist", "disabled_serverlist", "relaylist"]

def Kea4SettingsManager : SettingsManager where
  manager :=
    { className := "Kea4SettingsManager", endpoint := "kea/dhcpv4", payloadKey := "dhcpv4"
      sectionKey := some "general", applyEndpoint := some "kea/service/reconfigure"
      applyTimeout := some 60
      validators :=
        each boolStrField ["enabled", "fwrules", "manual_config"] ++
          each (strField (some 10)) ["valid_lifetime", "decline_probation_period",
            "service_sockets_max_retries", "service_sockets_retry_wait_time"] ++
          each (strField (some 1024)) ["interfaces", "compatibility"] ++
          [("dhcp_socket_type", enumField ["raw", "udp"])]
      diffEngine, registry := validatorRegistry }
  prepare _ := normalizeFields ["interfaces", "compatibility"]

def Kea6SettingsManager : SettingsManager where
  manager :=
    { className := "Kea6SettingsManager", endpoint := "kea/dhcpv6", payloadKey := "dhcpv6"
      sectionKey := some "general", applyEndpoint := some "kea/service/reconfigure"
      applyTimeout := some 60
      validators :=
        each boolStrField ["enabled", "fwrules", "manual_config"] ++
          each (strField (some 10)) ["valid_lifetime", "decline_probation_period",
            "service_sockets_max_retries", "service_sockets_retry_wait_time"] ++
          each (strField (some 1024)) ["interfaces", "mac_sources"]
      diffEngine, registry := validatorRegistry }
  prepare _ := normalizeFields ["interfaces", "mac_sources"]

def IdsSettingsManager : SettingsManager where
  manager :=
    { className := "IdsSettingsManager", endpoint := "ids/settings", payloadKey := "ids"
      sectionKey := some "general", applyEndpoint := some "ids/service/reconfigure"
      applyTimeout := some 120
      validators :=
        each boolStrField
            ["enabled", "promisc", "syslog", "syslog_eve", "LogPayload", "divert_listeners"] ++
          each (strField (some 10)) ["AlertSaveLogs", "defaultPacketSize"] ++
          each (strField (some 4096)) ["interfaces", "homenet", "eveLog"] ++
          [("mode", enumField ["pcap", "netmap", "divert"]),
            ("detect", .dict false []),
            ("AlertLogrotate", enumField ["D0", "W0D23"]),
            ("MPMAlgo", enumField ["", "ac", "ac-ks", "hs"]),
            ("verbosity", enumField ["", "v", "vv", "vvv", "vvvv"])]
      diffEngine, registry := validatorRegistry }
  prepare _ := normalizeFields ["interfaces", "homenet", "eveLog"]

def ChronyGeneralManager : SettingsManager where
  manager :=
    { className := "ChronyGeneralManager", endpoint := "chrony/general", payloadKey := "general"
      applyEndpoint := some "chrony/service/reconfigure", applyTimeout := some 60
      validators :=
        each boolStrField ["enabled", "ntsclient", "ntsnocert"] ++
          [("port", strField (some 5)),
            ("fallbackpeers", strField (some 255)),
            ("peers", strField (some 1024)),
            ("allowednetworks", strField (some 1024))]
      diffEngine, registry := validatorRegistry }
  prepare _ := normalizeFields ["peers", "allowednetworks"]

def LldpdGeneralManager : SettingsManager where
  manager :=
    { className := "LldpdGeneralManager", endpoint := "lldpd/general", payloadKey := "general"
      applyEndpoint := some "lldpd/service/reconfigure", applyTimeout := some 60
      validators :=
        each boolStrField ["enabled", "cdp", "fdp", "edp", "sonmp", "agentx"] ++
          [("interface", strField (some 255))]
      diffEngine, registry := validatorRegistry }
  prepare _ := normalizeFields ["interface"]

def MdnsRepeaterSettingsManager : SettingsManager where
  manager :=
    { className := "MdnsRepeaterSettingsManager", endpoint := "mdnsrepeater/settings"
      payloadKey := "mdnsrepeater", applyEndpoint := some "mdnsrepeater/service/reconfigure"
      applyTimeout := some 120
      validators :=
        each boolStrField ["enabled", "enablecarp"] ++
          each (strField (some 4096)) ["interfaces", "blocklist"]
      diffEngine, registry := validatorRegistry }
  prepare _ := normalizeFields ["interfaces", "blocklist"]

def QemuGuestAgentSettingsManager : SettingsManager where
  manager :=
    { className := "QemuGuestAgentSettingsManager", endpoint := "qemuguestagent/settings"
      payloadKey := "qemuguestagent", sectionKey := some "general"
      applyEndpoint := some "qemuguestagent/service/reconfigure", applyTimeout := some 60
      validators :=
        each boolStrField ["Enabled", "LogDebug"] ++ [("DisabledRPCs", strField (some 1024))]
      diffEngine, registry := validatorRegistry }
  prepare _ := normalizeFields ["DisabledRPCs"]

/-- Nothing is brought into shape for a state that is refused. -/
def DnsmasqSettingsManager : SettingsManager where
  manager :=
    { className := "DnsmasqSettingsManager", endpoint := "dnsmasq/settings", payloadKey := "dnsmasq"
      applyEndpoint := some "dnsmasq/service/reconfigure", applyTimeout := some 60
      validators :=
        each boolStrField ["enable", "regdhcp", "regdhcpstatic", "dhcpfirst", "strict_order",
            "domain_needed", "no_private_reverse", "no_resolv", "log_queries", "no_hosts",
            "strictbind", "dnssec", "add_subnet", "strip_subnet", "no_ident"] ++
          each (strField (some 255)) ["regdhcpdomain", "interface"] ++
          each (strField (some 5)) ["port", "dns_port"] ++
          each (strField (some 10)) ["dns_forward_max", "cache_size", "local_ttl"] ++
          [("add_mac", enumField ["", "standard", "base64", "text"]),
            ("dhcp", strField (some 255))]
      diffEngine, registry := validatorRegistry }
  prepare state params :=
    if state = "present" then normalizeFields ["interface", "dhcp"] params else params

/-- The multi-selects of NetFlow are those of its nested `capture` block. -/
def NetflowSettingsManager : SettingsManager where
  manager :=
    { className := "NetflowSettingsManager", endpoint := "diagnostics/netflow"
      payloadKey := "netflow", getAction := "getconfig", setAction := "setconfig"
      applyEndpoint := some "diagnostics/netflow/reconfigure", applyTimeout := some 60
      validators :=
        [("capture", .dict false
            [("interfaces", strField (some 1024)),
              ("egress_only", strField (some 1024)),
              ("version", enumField ["v5", "v9"]),
              ("targets", strField (some 1024))]),
          ("collect", .dict false [("enable", boolStrField)]),
          ("activeTimeout", strField (some 10)),
          ("inactiveTimeout", strField (some 10))]
      diffEngine, registry := validatorRegistry }
  prepare _ params :=
    match params.getD "capture" .null with
    | .obj capture =>
      params.set "capture" (.obj (normalizeFields ["interfaces", "egress_only", "targets"] capture))
    | _ => params

def MonitSettingsManager : SettingsManager where
  manager :=
    { className := "MonitSettingsManager", endpoint := "monit/settings", payloadKey := "monit"
      sectionKey := some "general", applyEndpoint := some "monit/service/reconfigure"
      applyTimeout := some 60
      redactFields := ["password", "httpdPassword", "username", "httpdUsername", "mmonitUrl"]
      validators :=
        each boolStrField
            ["enabled", "ssl", "sslverify", "httpdEnabled", "mmonitRegisterCredentials"] ++
          each (strField (some 10)) ["interval", "startdelay"] ++
          each (strField (some 5)) ["port", "httpdPort"] ++
          each (strField (some 10)) ["eventqueueSlots", "mmonitTimeout"] ++
          each (strField (some 255)) ["mailserver", "username", "password", "logfile", "statefile",
            "eventqueuePath", "httpdUsername", "httpdPassword", "httpdAllow", "mmonitUrl"] ++
          [("sslversion", enumField ["auto", "tlsv1", "tlsv11", "tlsv12", "tlsv13"])]
      diffEngine, registry := validatorRegistry }

end Opnsense
