import Opnsense.BaseManager
import Opnsense.FieldTypes

namespace Opnsense

/-- `{"type": "str"}`, with a maximal length where the source gives one. -/
def strField (maxLength : Option ℕ := none) : FieldSpec := .rule { type := "str", maxLength }

def requiredStr (maxLength : Option ℕ := none) : FieldSpec :=
  .rule { type := "str", required := true, maxLength }

def enumField (values : List String) : FieldSpec := .rule { type := "enum", values }

def boolStrField : FieldSpec := .rule { type := "bool_str" }

def fwFilterValidators : List (String × FieldSpec) :=
  [("description", requiredStr (some 255)),
    ("action", .rule { type := "enum", required := true, values := ["pass", "block", "reject"] }),
    ("interface", requiredStr),
    ("direction", enumField ["in", "out", "any"]),
    ("protocol", strField),
    ("ipprotocol", enumField ["inet", "inet6", "inet46"]),
    ("source_net", strField (some 255)),
    ("destination_net", strField (some 255)),
    ("source_port", strField (some 255)),
    ("destination_port", strField (some 255)),
    ("enabled", boolStrField),
    ("log", boolStrField),
    ("quick", boolStrField),
    ("sequence", .rule { type := "int", min := some 1 }),
    ("source_not", boolStrField),
    ("destination_not", boolStrField),
    ("interfacenot", boolStrField),
    ("gateway", strField),
    ("categories", strField),
    ("icmptype", strField),
    ("icmp6type", strField),
    ("statetype", enumField ["keep", "sloppy", "modulate", "synproxy", "none"]),
    ("tag", strField),
    ("tagged", strField),
    ("nosync", boolStrField),
    ("max-pkt-rate-number", strField (some 10)),
    ("max-pkt-rate-seconds", strField (some 10)),
    ("received-on", strField),
    ("received-on-not", boolStrField)]

def tsRuleValidators : List (String × FieldSpec) :=
  [("description", requiredStr (some 255)),
    ("interface", requiredStr),
    ("proto", enumField ["ip", "ip4", "ip6", "udp", "tcp", "icmp", "esp", "ah", "gre", "igmp",
      "ipv6-icmp", "tcp_ack", "tcp_ack_not"]),
    ("direction", enumField ["", "in", "out"]),
    ("enabled", boolStrField),
    ("sequence", .rule { type := "int", min := some 1 }),
    ("src_port", strField),
    ("dst_port", strField),
    ("source_not", boolStrField),
    ("destination_not", boolStrField),
    ("dscp", strField),
    ("iplen", strField),
    ("interface2", strField)]

def ubDotValidators : List (String × FieldSpec) :=
  [("server", requiredStr (some 255)),
    ("port", strField),
    ("type", enumField ["dot"]),
    ("verify", strField),
    ("domain", strField),
    ("forward_tcp_upstream", boolStrField),
    ("forward_first", boolStrField),
    ("enabled", boolStrField),
    ("description", strField (some 255))]

def ubHostOverrideValidators : List (String × FieldSpec) :=
  [("hostname", requiredStr (some 255)),
    ("domain", strField (some 255)),
    ("server", strField (some 255)),
    ("rr", enumField ["A", "AAAA", "MX", "TXT"]),
    ("mxprio", strField),
    ("mx", strField),
    ("ttl", strField),
    ("txtdata", strField),
    ("addptr", boolStrField),
    ("enabled", boolStrField),
    ("description", strField (some 255))]

section Managers

variable (diffEngine : DiffEngine)

def FwFilterManager : BaseManager where
  className := "FwFilterManager"
  config := { base := "firewall/filter", payloadKey := "rule", entitySuffix := some "Rule"
              applyEndpoint := some "firewall/filter/apply" }
  matchKeys := ["description", "interface", "direction", "protocol"]
  matchKeys_ne := List.cons_ne_nil _ _
  validators := fwFilterValidators
  diffEngine := diffEngine
  registry := validatorRegistry

/-- The search endpoint is plural, so `list` is overridden. -/
def TsRuleManager : BaseManager where
  className := "TsRuleManager"
  config := { base := "trafficshaper/settings", payloadKey := "rule", entitySuffix := some "Rule"
              applyEndpoint := some "trafficshaper/service/reconfigure" }
  matchKeys := ["description", "interface", "proto"]
  matchKeys_ne := List.cons_ne_nil _ _
  validators := tsRuleValidators
  listAction := some "trafficshaper/settings/searchRules"
  diffEngine := diffEngine
  registry := validatorRegistry

def UbDotManager : BaseManager where
  className := "UbDotManager"
  config := { base := "unbound/settings", payloadKey := "dot", entitySuffix := some "Dot"
              applyEndpoint := some "unbound/service/reconfigure" }
  matchKeys := ["server", "port"]
  matchKeys_ne := List.cons_ne_nil _ _
  validators := ubDotValidators
  applyTimeout := some 60
  diffEngine := diffEngine
  registry := validatorRegistry

def UbHostOverrideManager : BaseManager where
  className := "UbHostOverrideManager"
  config := { base := "unbound/settings", payloadKey := "host"
              entitySuffix := some "HostOverride"
              applyEndpoint := some "unbound/service/reconfigure" }
  matchKeys := ["hostname", "domain", "server"]
  matchKeys_ne := List.cons_ne_nil _ _
  validators := ubHostOverrideValidators
  applyTimeout := some 60
  diffEngine := diffEngine
  registry := validatorRegistry

def optionalKeyManagers : List BaseManager :=
  [FwFilterManager diffEngine, TsRuleManager diffEngine, UbDotManager diffEngine,
    UbHostOverrideManager diffEngine]

/-- Their validators leave some match key optional. -/
theorem optionalKeyManagers_optional : ∀ m ∈ optionalKeyManagers diffEngine,
    ∃ k ∈ m.matchKeys, ∃ rule : FieldRule,
      m.validators.lookup k = some (.rule rule) ∧ rule.required = false := by
  intro m hm
  simp only [optionalKeyManagers, List.mem_cons, List.not_mem_nil, or_false] at hm
  rcases hm with rfl | rfl | rfl | rfl
  · exact ⟨"direction", by simp [FwFilterManager], _, rfl, rfl⟩
  · exact ⟨"proto", by simp [TsRuleManager], _, rfl, rfl⟩
  · exact ⟨"port", by simp [UbDotManager], _, rfl, rfl⟩
  · exact ⟨"domain", by simp [UbHostOverrideManager], _, rfl, rfl⟩

end Managers
end Opnsense
