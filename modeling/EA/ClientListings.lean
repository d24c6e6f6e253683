import EA.DiscoveryClient
import EA.ServletIndex

namespace EA

open ByteString

namespace DiscoveryClient

variable (query : QuerySender)

/-- The common start of the query methods. -/
def ask (request : DiscoveryQueryRequest) : Except Status DiscoveryQueryResponse :=
  match query request with
  | .error err => .error err
  | .ok response =>
    if response.errcode ≠ .success then .error ⟨.unknown, response.errmsg⟩ else .ok response

/-- The methods that list return the caller's vector as it is after OK; before an
error it is not touched. -/
def listZone (zoneList : List ZoneInfo) : Except Status (List ZoneInfo) :=
  (ask query { opType := .queryZone }).map fun response => zoneList ++ response.zoneInfos

/-- The zones go to the caller's vector, and the filter runs over `all_zone_list`,
which nothing is put into. -/
def listZoneOf (ns : Bytes) (zoneList : List ZoneInfo) : Except Status (List ZoneInfo) :=
  let allZoneList : List ZoneInfo := []
  (listZone query zoneList).map fun zoneList =>
    zoneList ++ allZoneList.filter (·.namespaceName = ns)

def zoneLine (zone : ZoneInfo) : Bytes := zone.namespaceName ++ ascii "," ++ zone.zone

def listZoneNamesOf (ns : Bytes) (zoneList : List Bytes) : Except Status (List Bytes) :=
  (listZoneOf query ns []).map fun zoneProtoList => zoneList ++ zoneProtoList.map zoneLine

/-- The op type is the one of `list_zone`. -/
def listServlet (servletList : List ServletInfo) : Except Status (List ServletInfo) :=
  (ask query { opType := .queryZone }).map fun response => servletList ++ response.servletInfos

def listServletOf (ns : Bytes) (servletList : List ServletInfo) : Except Status (List ServletInfo) :=
  (listServlet query []).map fun allServletList =>
    servletList ++ allServletList.filter (·.namespaceName = ns)

def listServletIn (ns zone : Bytes) (servletList : List ServletInfo) :
    Except Status (List ServletInfo) :=
  (listServlet query []).map fun allServletList =>
    servletList ++ allServletList.filter fun servlet =>
      servlet.namespaceName = ns ∧ servlet.zone = zone

def listServletNames (servletList : List Bytes) : Except Status (List Bytes) :=
  (listServlet query []).map fun allServletList =>
    servletList ++ allServletList.map ServletInfo.servletName

def listServletNamesOf (ns : Bytes) (servletList : List Bytes) : Except Status (List Bytes) :=
  (listServlet query []).map fun allServletList =>
    servletList ++ (allServletList.filter (·.namespaceName = ns)).map ServletInfo.servletName

def listServletNamesIn (ns zone : Bytes) (servletList : List Bytes) : Except Status (List Bytes) :=
  (listServlet query []).map fun allServletList =>
    servletList ++ (allServletList.filter fun servlet =>
      servlet.namespaceName = ns ∧ servlet.zone = zone).map ServletInfo.servletName

/-- Neither the op type of the servlets nor the three names are set. -/
def getServlet (_nsName _zoneName _servlet : Bytes) : Except Status ServletInfo :=
  match ask query { opType := .queryZone } with
  | .error err => .error err
  | .ok response =>
    match response.servletInfos with
    | [servlet] => .ok servlet
    | servlets =>
      .error ⟨.unknown, ascii "bad proto format for servlet infos size: " ++ decimal servlets.length⟩

end DiscoveryClient

/-- The listing methods, with what they are asked for. -/
inductive Listing where
  | zonesOf (ns : Bytes)
  | zoneNamesOf (ns : Bytes)
  | servlets
  | servletNames
  | servletsOf (ns : Bytes)
  | servletNamesOf (ns : Bytes)
  | servletsIn (ns zone : Bytes)
  | servletNamesIn (ns zone : Bytes)
  | servlet (ns zone servlet : Bytes)

namespace Memory

variable (m : Memory)

def zones : List ZoneInfo := m.schema.zones.infoMap.vals

def servlets : List ServletInfo := m.schema.servlets.infoMap.vals

def storedServlet (ns zone servlet : Bytes) : Option ServletInfo :=
  m.schema.servlets.idMap[makeServletKey (makeZoneKey ns zone) servlet]?.bind fun id =>
    m.schema.servlets.infoMap[id]?

/-- A transport that reaches a server with this catalogue. -/
def serve (trim : Bytes → Bytes) (order : HashOrder) : QuerySender :=
  fun request => .ok (discoveryQuery trim order request m)

end Memory

/-- Whatever the caller's vector holds, the wanted elements are appended, in any order. -/
def Appends {α : Type} (list : List α → Except Status (List α)) (wanted : List α) : Prop :=
  ∀ old, ∃ added, list old = .ok (old ++ added) ∧ added.Perm wanted

namespace Listing

variable {m : Memory} {trim : Bytes → Bytes} {order : HashOrder}

def Faithful (trim : Bytes → Bytes) (order : HashOrder) (m : Memory) : Listing → Prop
  | zonesOf ns =>
    Appends (DiscoveryClient.listZoneOf (m.serve trim order) ns) (m.zones.filter (·.namespaceName = ns))
  | zoneNamesOf ns =>
    Appends (DiscoveryClient.listZoneNamesOf (m.serve trim order) ns)
      ((m.zones.filter (·.namespaceName = ns)).map DiscoveryClient.zoneLine)
  | servlets => Appends (DiscoveryClient.listServlet (m.serve trim order)) m.servlets
  | servletNames =>
    Appends (DiscoveryClient.listServletNames (m.serve trim order)) (m.servlets.map ServletInfo.servletName)
  | servletsOf ns =>
    Appends (DiscoveryClient.listServletOf (m.serve trim order) ns)
      (m.servlets.filter (·.namespaceName = ns))
  | servletNamesOf ns =>
    Appends (DiscoveryClient.listServletNamesOf (m.serve trim order) ns)
      ((m.servlets.filter (·.namespaceName = ns)).map ServletInfo.servletName)
  | servletsIn ns zone =>
    Appends (DiscoveryClient.listServletIn (m.serve trim order) ns zone)
      (m.servlets.filter fun servlet => servlet.namespaceName = ns ∧ servlet.zone = zone)
  | servletNamesIn ns zone =>
    Appends (DiscoveryClient.listServletNamesIn (m.serve trim order) ns zone)
      ((m.servlets.filter fun servlet =>
        servlet.namespaceName = ns ∧ servlet.zone = zone).map ServletInfo.servletName)
  | servlet ns zone name =>
    ∀ info, m.storedServlet ns zone name = some info →
      DiscoveryClient.getServlet (m.serve trim order) ns zone name = .ok info

/-- All zones are in the namespace asked for; no servlet is asked for that there is. -/
def Fits (m : Memory) : Listing → Prop
  | zonesOf ns | zoneNamesOf ns => ∀ zone ∈ m.zones, zone.namespaceName = ns
  | servlets | servletNames => m.servlets = []
  | servletsOf ns | servletNamesOf ns => ∀ servlet ∈ m.servlets, servlet.namespaceName ≠ ns
  | servletsIn ns zone | servletNamesIn ns zone =>
    ∀ servlet ∈ m.servlets, ¬ (servlet.namespaceName = ns ∧ servlet.zone = zone)
  | servlet ns zone name => m.storedServlet ns zone name = none

end Listing

theorem appends_iff {α : Type} {list : List α → Except Status (List α)} {added wanted : List α}
    (returns : ∀ old, list old = .ok (old ++ added)) : Appends list wanted ↔ added.Perm wanted := by
  constructor
  · intro appends
    obtain ⟨same, hsame, perm⟩ := appends []
    have eq : added = same := by simpa [returns] using hsame
    exact eq ▸ perm
  · intro perm old
    exact ⟨added, returns old, perm⟩

/-- A list is its own selection, in any order, when everything is selected. -/
theorem map_perm_map_filter {α β : Type} {l l' : List α} (walked : l'.Perm l) {p : α → Bool}
    {f : α → β} : (l'.map f).Perm ((l.filter p).map f) ↔ ∀ a ∈ l, p a = true := by
  constructor
  · intro perm
    have sizes := perm.length_eq
    simp only [List.length_map, walked.length_eq] at sizes
    exact List.length_filter_eq_length_iff.mp sizes.symm
  · intro all
    rw [List.filter_eq_self.mpr all]
    exact walked.map f

theorem appends_nothing_iff {α : Type} {list : List α → Except Status (List α)} {wanted : List α}
    (nothing : ∀ old, list old = .ok (old ++ [])) : Appends list wanted ↔ wanted = [] :=
  (appends_iff nothing).trans List.nil_perm

namespace DiscoveryClient

variable (trim : Bytes → Bytes) (order : HashOrder) (m : Memory)

theorem listZone_serve (old : List ZoneInfo) :
    listZone (m.serve trim order) old = .ok (old ++ order.walk m.zones) := rfl

theorem listZoneOf_serve (ns : Bytes) (old : List ZoneInfo) :
    listZoneOf (m.serve trim order) ns old = .ok (old ++ order.walk m.zones) := by
  rw [listZoneOf, listZone_serve]
  simp [Except.map]

theorem listZoneNamesOf_serve (ns : Bytes) (old : List Bytes) :
    listZoneNamesOf (m.serve trim order) ns old =
      .ok (old ++ (order.walk m.zones).map zoneLine) := by
  rw [listZoneNamesOf, listZoneOf_serve]
  rfl

/-- The answer to the query for zones has no servlets. -/
theorem listServlet_serve (old : List ServletInfo) :
    listServlet (m.serve trim order) old = .ok (old ++ []) := rfl

theorem listServletNames_serve (old : List Bytes) :
    listServletNames (m.serve trim order) old = .ok (old ++ []) := rfl

theorem listServletOf_serve (ns : Bytes) (old : List ServletInfo) :
    listServletOf (m.serve trim order) ns old = .ok (old ++ []) := rfl

theorem listServletNamesOf_serve (ns : Bytes) (old : List Bytes) :
    listServletNamesOf (m.serve trim order) ns old = .ok (old ++ []) := rfl

theorem listServletIn_serve (ns zone : Bytes) (old : List ServletInfo) :
    listServletIn (m.serve trim order) ns zone old = .ok (old ++ []) := rfl

theorem listServletNamesIn_serve (ns zone : Bytes) (old : List Bytes) :
    listServletNamesIn (m.serve trim order) ns zone old = .ok (old ++ []) := rfl

theorem getServlet_serve (ns zone servlet : Bytes) :
    getServlet (m.serve trim order) ns zone servlet =
      .error ⟨.unknown, ascii "bad proto format for servlet infos size: " ++ decimal 0⟩ := rfl

end DiscoveryClient

namespace Listing

theorem zonesOf_faithful_iff {ns : Bytes} :
    (zonesOf ns).Faithful trim order m ↔ ∀ zone ∈ m.zones, zone.namespaceName = ns := by
  rw [Faithful, appends_iff (DiscoveryClient.listZoneOf_serve trim order m ns)]
  simpa using map_perm_map_filter (order.walk_perm m.zones) (p := (·.namespaceName = ns)) (f := id)

theorem servlets_faithful_iff : servlets.Faithful trim order m ↔ m.servlets = [] :=
  appends_nothing_iff (DiscoveryClient.listServlet_serve trim order m)

/-- A stored servlet is never returned. -/
theorem servlet_faithful_iff {ns zone name : Bytes} :
    (servlet ns zone name).Faithful trim order m ↔ m.storedServlet ns zone name = none := by
  constructor
  · intro faithful
    cases stored : m.storedServlet ns zone name with
    | none => rfl
    | some info => exact absurd (faithful info stored) (by simp [DiscoveryClient.getServlet_serve])
  · intro absent info stored
    cases absent.symm.trans stored

end Listing

theorem listing_faithful_iff (trim : Bytes → Bytes) (order : HashOrder) (m : Memory)
    (listing : Listing) : listing.Faithful trim order m ↔ listing.Fits m := by
  cases listing with
  | zonesOf ns => exact Listing.zonesOf_faithful_iff
  | zoneNamesOf ns =>
    rw [Listing.Faithful, appends_iff (DiscoveryClient.listZoneNamesOf_serve trim order m ns),
      map_perm_map_filter (order.walk_perm m.zones)]
    simp [Listing.Fits]
  | servlets => exact Listing.servlets_faithful_iff
  | servletNames =>
    rw [Listing.Faithful,
      appends_nothing_iff (DiscoveryClient.listServletNames_serve trim order m)]
    exact List.map_eq_nil_iff
  | servletsOf ns =>
    rw [Listing.Faithful,
      appends_nothing_iff (DiscoveryClient.listServletOf_serve trim order m ns)]
    simp [Listing.Fits]
  | servletNamesOf ns =>
    rw [Listing.Faithful,
      appends_nothing_iff (DiscoveryClient.listServletNamesOf_serve trim order m ns)]
    simp [Listing.Fits]
  | servletsIn ns zone =>
    rw [Listing.Faithful,
      appends_nothing_iff (DiscoveryClient.listServletIn_serve trim order m ns zone)]
    simp [Listing.Fits]
  | servletNamesIn ns zone =>
    rw [Listing.Faithful,
      appends_nothing_iff (DiscoveryClient.listServletNamesIn_serve trim order m ns zone)]
    simp [Listing.Fits]
  | servlet ns zone name => exact Listing.servlet_faithful_iff

/-- Two namespaces, one of them with a zone and a servlet in it. -/
def listedEvents : List DiscoveryEvent :=
  [namespaceEvent "shop", namespaceEvent "blog", zoneEvent .opCreateZone "shop" "east",
    servletEvent .opCreateServlet "shop" "east" "web"]

theorem listings_miss_the_catalogue :
    ∃ r, Reachable (fun _ => true) (fun _ e => PlainNames e) r ∧
      ∀ (trim : Bytes → Bytes) (order : HashOrder),
        ¬ Listing.Faithful trim order r.memory (.zonesOf (ascii "blog")) ∧
        ¬ Listing.Faithful trim order r.memory .servlets ∧
        ¬ Listing.Faithful trim order r.memory
          (.servlet (ascii "shop") (ascii "east") (ascii "web")) := by
  have run : (listedEvents.foldlM
      (fun r e => if PlainNames e then Replica.step (fun _ => true) r e else none) {}).map
        (fun r => (r.memory.zones.map ZoneInfo.namespaceName, r.memory.servlets.length,
          (r.memory.storedServlet (ascii "shop") (ascii "east") (ascii "web")).isSome)) =
      some ([ascii "shop"], 1, true) := by decide
  obtain ⟨r, hr, eq⟩ := Option.map_eq_some_iff.mp run
  obtain ⟨zones, rest⟩ := Prod.mk.inj eq
  obtain ⟨servlets, stored⟩ := Prod.mk.inj rest
  refine ⟨r, Reach.From.of_checked hr, fun trim order => ⟨?_, ?_, ?_⟩⟩
  · intro faithful
    obtain ⟨zone, hzone, inShop⟩ : ∃ zone ∈ r.memory.zones, zone.namespaceName = ascii "shop" := by
      have mem : ascii "shop" ∈ r.memory.zones.map ZoneInfo.namespaceName := by simp [zones]
      exact List.mem_map.mp mem
    have inBlog := Listing.zonesOf_faithful_iff.mp faithful zone hzone
    exact absurd (inShop.symm.trans inBlog) (by decide)
  · intro faithful
    simp [Listing.servlets_faithful_iff.mp faithful] at servlets
  · intro faithful
    simp [Listing.servlet_faithful_iff.mp faithful] at stored

end EA
