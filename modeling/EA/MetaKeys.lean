import EA.DiscoveryMessages

namespace EA

open ByteString

def schemaIdentify : Bytes := [0x01]
def maxIdSchemaIdentify : Bytes := [0x01]
def namespaceSchemaIdentify : Bytes := [0x02]
def zoneSchemaIdentify : Bytes := [0x09]
def servletSchemaIdentify : Bytes := [0x0A]
def privilegeIdentify : Bytes := [0x02]
def discoveryIdentify : Bytes := [0x03]
def discoveryInstanceIdentify : Bytes := [0x03]
def configIdentify : Bytes := [0x04]

def maxNamespaceIdKey : Bytes := ascii "max_namespace_id"
def maxZoneIdKey : Bytes := ascii "max_zone_id"
def maxServletIdKey : Bytes := ascii "max_servlet_id"

def constructNamespaceKey (namespaceId : Nat) : Bytes :=
  schemaIdentify ++ namespaceSchemaIdentify ++ rawId namespaceId

def constructZoneKey (zoneId : Nat) : Bytes :=
  schemaIdentify ++ zoneSchemaIdentify ++ rawId zoneId

def constructServletKey (servletId : Nat) : Bytes :=
  schemaIdentify ++ servletSchemaIdentify ++ rawId servletId

def constructMaxNamespaceIdKey : Bytes :=
  schemaIdentify ++ maxIdSchemaIdentify ++ maxNamespaceIdKey

def constructMaxZoneIdKey : Bytes :=
  schemaIdentify ++ maxIdSchemaIdentify ++ maxZoneIdKey

def constructMaxServletIdKey : Bytes :=
  schemaIdentify ++ maxIdSchemaIdentify ++ maxServletIdKey

def constructPrivilegeKey (username : Bytes) : Bytes := privilegeIdentify ++ username

def constructInstanceKey (address : Bytes) : Bytes :=
  discoveryIdentify ++ discoveryInstanceIdentify ++ address

def makeConfigKey (name : Bytes) (version : ModuleVersion) : Bytes :=
  configIdentify ++ name ++ version.toBytes

/-- `ZoneManager::make_zone_key`. -/
def makeZoneKey (namespaceName zoneName : Bytes) : Bytes :=
  namespaceName ++ 0x01 :: zoneName

/-- `ServletManager::make_servlet_key` over a zone key. -/
def makeServletKey (zoneKey servletName : Bytes) : Bytes :=
  zoneKey ++ 0x01 :: servletName

theorem constructNamespaceKey_injective : Function.Injective constructNamespaceKey :=
  fun _ _ h => rawId_injective (List.append_cancel_left h)

theorem constructZoneKey_injective : Function.Injective constructZoneKey :=
  fun _ _ h => rawId_injective (List.append_cancel_left h)

theorem constructServletKey_injective : Function.Injective constructServletKey :=
  fun _ _ h => rawId_injective (List.append_cancel_left h)

theorem constructPrivilegeKey_injective : Function.Injective constructPrivilegeKey :=
  fun _ _ h => List.append_cancel_left h

theorem constructInstanceKey_injective : Function.Injective constructInstanceKey :=
  fun _ _ h => List.append_cancel_left h

theorem makeZoneKey_inj {n z n' z' : Bytes} (hn : 0x01 ∉ n) (hn' : 0x01 ∉ n')
    (h : makeZoneKey n z = makeZoneKey n' z') : n = n' ∧ z = z' :=
  append_separator_inj hn hn' h

theorem makeServletKey_inj {n z s n' z' s' : Bytes} (hn : 0x01 ∉ n) (hn' : 0x01 ∉ n')
    (hz : 0x01 ∉ z) (hz' : 0x01 ∉ z')
    (h : makeServletKey (makeZoneKey n z) s = makeServletKey (makeZoneKey n' z') s') :
    n = n' ∧ z = z' ∧ s = s' := by
  simp only [makeServletKey, makeZoneKey, List.append_assoc, List.cons_append] at h
  obtain ⟨eq, rest⟩ := append_separator_inj hn hn' h
  exact ⟨eq, append_separator_inj hz hz' rest⟩

end EA
