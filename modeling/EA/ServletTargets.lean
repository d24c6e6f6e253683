import EA.ServletIndex
import EA.ServletOrigin

namespace EA

open ByteString

variable {serialises : MetaValue → Bool} {ok : Replica → DiscoveryEvent → Prop} {r : Replica}

/-- Only the addressed servlet changes, and only its version and its tag. -/
def ModifiesTarget (request : DiscoveryManagerRequest) (r r' : Replica) : Prop :=
  ∃ (v : Nat) (old new : ServletInfo),
    r.memory.schema.servlets.idMap[request.servletInfo.servletKey]? = some v ∧
    r.memory.schema.servlets.infoMap[v]? = some old ∧
    r'.memory.schema.servlets.infoMap[v]? = some new ∧
    new.identity = old.identity ∧
    new.version = old.version + 1 ∧
    new.resourceTag = (request.servletInfo.resourceTag <|> old.resourceTag) ∧
    r'.db[constructServletKey v]? = some (.servletInfo new) ∧
    (∀ w : Nat, w ≠ v →
      r'.memory.schema.servlets.infoMap[w]? = r.memory.schema.servlets.infoMap[w]?) ∧
    (∀ key : Bytes, r'.memory.schema.servlets.idMap[key]? =
      r.memory.schema.servlets.idMap[key]?) ∧
    ∀ key : Bytes, key ≠ constructServletKey v → r'.db[key]? = r.db[key]?

/-- What a modification that goes through leaves behind. -/
structure ServletModified (request : DiscoveryManagerRequest) (r r' : Replica) (zoneId v : Nat)
    (old : ServletInfo) : Prop where
  zone : r.memory.schema.zones.getZoneId request.servletInfo.zoneKey = zoneId
  positive : zoneId ≠ 0
  found : r.memory.schema.servlets.idMap[request.servletInfo.servletKey]? = some v
  read : r.memory.schema.servlets.infoMap.getD zoneId default = old
  db : r'.db = r.db.insert (constructServletKey v)
    (.servletInfo (modifiedServlet request.servletInfo old))
  servlets : r'.memory.schema.servlets =
    (r.memory.schema.servlets.touchInfo zoneId).setServletInfo
      (modifiedServlet request.servletInfo old)

theorem modifyServlet_success {request : DiscoveryManagerRequest} {env : Env}
    (op : request.opType = .opModifyServlet)
    (success : (onApply serialises request env r).2.errcode = .success) :
    ∃ zoneId v old,
      ServletModified request r (onApply serialises request env r).1 zoneId v old := by
  have plan : schemaPlan request r.memory.schema =
      some (modifyServlet request r.memory.schema) := by
    simp only [schemaPlan, op]
  have out : onApply serialises request env r = _ :=
    onApply_of_handle (handle_of_schemaPlan plan env.now)
  rw [out] at success ⊢
  unfold modifyServlet at success ⊢
  dsimp only at success ⊢
  split at success
  next => exact absurd success Plan.run_refuse_code
  next owner =>
    rw [if_neg owner]
    split at success
    next => exact absurd success Plan.run_refuse_code
    next zone =>
      rw [if_neg zone]
      split at success
      next => exact absurd success Plan.run_refuse_code
      next v found =>
        rw [Plan.run_write_success success]
        exact ⟨_, v, _, rfl, zone, found, rfl, rfl, rfl⟩

/-- The written info has the number of the one that was read, so it is the servlet's
own exactly when that one was read from the servlet's number. -/
theorem modifiesTarget_iff {request : DiscoveryManagerRequest} {r' : Replica} {zoneId v : Nat}
    {old : ServletInfo} (tracked : ServletsTracked r.db r.memory.schema)
    (h : ServletModified request r r' zoneId v old) :
    ModifiesTarget request r r' ↔ zoneId = v := by
  have idMap : r'.memory.schema.servlets.idMap =
      r.memory.schema.servlets.idMap.insert old.servletKey old.servletId := by
    rw [h.servlets]
    rfl
  have infoMap : r'.memory.schema.servlets.infoMap =
      (Table.touch r.memory.schema.servlets.infoMap zoneId).insert old.servletId
        (modifiedServlet request.servletInfo old) := by
    rw [h.servlets]
    rfl
  constructor
  · rintro ⟨w, before, after, found, here, changed, _, version, _⟩
    cases Option.some.inj (h.found.symm.trans found)
    by_contra apart
    -- the version under `v` grows only if something was written there
    have written : old.servletId = v := by
      by_contra elsewhere
      rw [infoMap, Table.lookup_insert_ne _ _ elsewhere,
        Table.lookup_touch_of_lookup here zoneId] at changed
      cases Option.some.inj changed
      omega
    rw [infoMap, written, Table.lookup_insert_self] at changed
    cases Option.some.inj changed
    -- a blank info goes to number zero, where a written one was before
    have real : old ≠ default := by
      intro blank
      have number : v = 0 := by rw [← written, blank]; rfl
      have first : (modifiedServlet request.servletInfo old).version = 1 := by rw [blank]; rfl
      rcases tracked.placed v before here with ⟨_, grown⟩ | ⟨_, nonzero⟩
      · omega
      · exact nonzero number
    rcases Table.lookup_of_getD h.read with source | blank
    · rcases tracked.placed zoneId old source with ⟨own, _⟩ | ⟨blank, _⟩
      · omega
      · exact real blank
    · exact real blank
  · intro same
    subst v
    rcases tracked.named _ zoneId h.found with zero | ⟨info, here, own, key⟩
    · exact absurd zero h.positive
    have eq : info = old := by
      have read := h.read
      rw [Table.getD_eq, here] at read
      exact read
    subst info
    rw [Table.touch_of_lookup here, own] at infoMap
    rw [own, key] at idMap
    refine ⟨zoneId, old, modifiedServlet request.servletInfo old, h.found, here, ?_, rfl, rfl, rfl,
      ?_, ?_, ?_, ?_⟩
    · rw [infoMap, Table.lookup_insert_self]
    · rw [h.db, Table.lookup_insert_self]
    · intro w ne
      rw [infoMap, Table.lookup_insert_ne _ _ ne.symm]
    · intro other
      by_cases eq : request.servletInfo.servletKey = other
      · rw [idMap, ← eq, Table.lookup_insert_self, h.found]
      · rw [idMap, Table.lookup_insert_ne _ _ eq]
    · intro other ne
      rw [h.db, Table.lookup_insert_ne _ _ ne.symm]

/-- A modification that succeeds changes its target and nothing else exactly where the
servlet's number is its zone's: the info is fetched with the zone's. -/
theorem modify_target_iff (h : Reachable serialises ok r) {request : DiscoveryManagerRequest}
    {env : Env} (op : request.opType = .opModifyServlet)
    (success : (onApply serialises request env r).2.errcode = .success) :
    ModifiesTarget request r (onApply serialises request env r).1 ↔
      r.memory.schema.zones.getZoneId request.servletInfo.zoneKey =
        r.memory.schema.servlets.getServletId request.servletInfo.servletKey := by
  obtain ⟨zoneId, v, old, modified⟩ := modifyServlet_success op success
  have number : r.memory.schema.servlets.getServletId request.servletInfo.servletKey = v := by
    rw [ServletManager.getServletId, modified.found]
    rfl
  rw [modified.zone, number]
  exact modifiesTarget_iff (reachable_servletsTracked h) modified

def tagRequest (zone servlet : String) : DiscoveryManagerRequest :=
  { opType := .opModifyServlet,
    servletInfo := { namespaceName := ascii "shop", zone := ascii zone,
                     servletName := ascii servlet, resourceTag := some (ascii "fast") } }

/-- The first servlet of the first zone is modified. -/
theorem modify_target_of_first : ∃ r, Reachable (fun _ => true) (fun _ e => PlainNames e) r ∧
    ModifiesTarget (tagRequest "east" "till") r
      (onApply (fun _ => true) (tagRequest "east" "till") ⟨0, true⟩ r).1 := by
  have run : ([namespaceEvent "shop", zoneEvent .opCreateZone "shop" "east",
      servletEvent .opCreateServlet "shop" "east" "till"].foldlM
        (fun r e => if PlainNames e then Replica.step (fun _ => true) r e else none) {}).map
      (fun r => ((onApply (fun _ => true) (tagRequest "east" "till") ⟨0, true⟩ r).2.errcode,
        r.memory.schema.zones.getZoneId (tagRequest "east" "till").servletInfo.zoneKey,
        r.memory.schema.servlets.getServletId (tagRequest "east" "till").servletInfo.servletKey)) =
      some (.success, 1, 1) := by decide
  obtain ⟨r, hr, eq⟩ := Option.map_eq_some_iff.mp run
  obtain ⟨success, eq⟩ := Prod.mk.inj eq
  obtain ⟨zone, servlet⟩ := Prod.mk.inj eq
  have reached : Reachable (fun _ => true) (fun _ e => PlainNames e) r := Reach.From.of_checked hr
  exact ⟨r, reached, (modify_target_iff reached rfl success).mpr (zone.trans servlet.symm)⟩

/-- The second servlet of the first zone is modified: the first one is tagged, and its
info is stored under the second one's number. -/
theorem modify_other_servlet :
    ¬ ∀ r, Reachable (fun _ => true) (fun _ e => PlainNames e) r →
      ∀ (request : DiscoveryManagerRequest) (env : Env), request.opType = .opModifyServlet →
        (onApply (fun _ => true) request env r).2.errcode = .success →
        ModifiesTarget request r (onApply (fun _ => true) request env r).1 := by
  intro targets
  have run : ([namespaceEvent "shop", zoneEvent .opCreateZone "shop" "east",
      servletEvent .opCreateServlet "shop" "east" "cart",
      servletEvent .opCreateServlet "shop" "east" "till"].foldlM
        (fun r e => if PlainNames e then Replica.step (fun _ => true) r e else none) {}).map
      (fun r => ((onApply (fun _ => true) (tagRequest "east" "till") ⟨0, true⟩ r).2.errcode,
        r.memory.schema.zones.getZoneId (tagRequest "east" "till").servletInfo.zoneKey,
        r.memory.schema.servlets.idMap[(tagRequest "east" "till").servletInfo.servletKey]?)) =
      some (.success, 1, some 2) := by decide
  obtain ⟨r, hr, eq⟩ := Option.map_eq_some_iff.mp run
  obtain ⟨success, eq⟩ := Prod.mk.inj eq
  obtain ⟨zone, servlet⟩ := Prod.mk.inj eq
  have reached : Reachable (fun _ => true) (fun _ e => PlainNames e) r := Reach.From.of_checked hr
  obtain ⟨zoneId, v, old, modified⟩ := modifyServlet_success rfl success
  have same : zoneId = v :=
    (modifiesTarget_iff (reachable_servletsTracked reached) modified).mp
      (targets r reached (tagRequest "east" "till") ⟨0, true⟩ rfl success)
  have first : zoneId = 1 := modified.zone.symm.trans zone
  have second : v = 2 := Option.some.inj (modified.found.symm.trans servlet)
  omega

/-- Names of servlets hold no separator, wherever they are kept. -/
structure ServletNamesPlain (db : MetaDb) (s : Schema) : Prop where
  known : ∀ info, KnownServlet db s info → 0x01 ∉ info.namespaceName
  keys : ∀ (key : Bytes) (v : Nat), s.servlets.idMap[key]? = some v →
    ∃ info : ServletInfo, info.servletKey = key ∧ 0x01 ∉ info.namespaceName

theorem servletNamesPlain_empty : ServletNamesPlain ∅ {} where
  known info h := by simp [KnownServlet] at h
  keys := by simp

theorem ServletNamesPlain.frame {db db' : MetaDb} {s : Schema}
    (same : SameRecords schemaIdentify db db') (h : ServletNamesPlain db s) :
    ServletNamesPlain db' s where
  known info known := h.known info (known.of_same rfl fun _ => same _ rfl)
  keys := h.keys

theorem ServletNamesPlain.of_origin {request : DiscoveryManagerRequest} (plain : request.Plain)
    {db : MetaDb} {s s' : Schema} (h : ServletNamesPlain db s) {info : ServletInfo}
    (origin : ServletOrigin request db s s' info) : 0x01 ∉ info.namespaceName := by
  cases origin with
  | known old known same =>
    have name : info.namespaceName = old.namespaceName := by
      have here := congrArg ServletInfo.namespaceName same
      exact here
    rw [name]
    exact h.known old known
  | blank same =>
    have name : info.namespaceName = [] := by
      have here := congrArg ServletInfo.namespaceName same
      exact here
    simp [name]
  | created _ named =>
    rw [named.1]
    exact plain.2.2.1.1

theorem ServletNamesPlain.no_zoneKey {db : MetaDb} {s : Schema} (h : ServletNamesPlain db s)
    {namespaceName zone : Bytes} (hn : 0x01 ∉ namespaceName) (hz : 0x01 ∉ zone) :
    s.servlets.idMap[makeZoneKey namespaceName zone]? = none := by
  cases found : s.servlets.idMap[makeZoneKey namespaceName zone]? with
  | none => rfl
  | some v =>
    obtain ⟨info, key, plain⟩ := h.keys _ v found
    exact absurd key (servletKey_ne_zoneKey plain hn hz)

theorem ServletNamesPlain.keys_step {request : DiscoveryManagerRequest} (plain : request.Plain)
    {db : MetaDb} {s : Schema} {p : Plan Schema} (h : ServletNamesPlain db s)
    (step : SchemaStep request s p) :
    p.Preserves (fun _ s' => ∀ (key : Bytes) (v : Nat), s'.servlets.idMap[key]? = some v →
      ∃ info : ServletInfo, info.servletKey = key ∧ 0x01 ∉ info.namespaceName) db := by
  cases step with
  | refused | namespaceHasZones | zoneHasServlets => exact h.keys
  | createNamespace | dropNamespace | modifyNamespace | createZone | dropZone | modifyZone =>
    exact ⟨h.keys, h.keys⟩
  | createServlet info op built named =>
    refine ⟨h.keys, fun key v found => ?_⟩
    rcases Table.lookup_insert_some found with ⟨same, _⟩ | ⟨_, old⟩
    · refine ⟨info, same, ?_⟩
      rw [named.1]
      exact plain.2.2.1.1
    · exact h.keys key v old
  | dropServlet zoneId other op owner zone found =>
    have none := h.no_zoneKey plain.2.2.1.1 plain.2.2.1.2.1
    rw [ServletInfo.zoneKey, none] at found
    cases found
  | modifyServlet zoneId id old info op owner zone found read built sameNames =>
    refine ⟨h.keys, fun key v found => ?_⟩
    rcases Table.lookup_insert_some found with ⟨same, _⟩ | ⟨_, before⟩
    · refine ⟨info, same, ?_⟩
      rw [sameNames.1]
      rcases Table.lookup_of_getD read with here | rfl
      · exact h.known old (Or.inl ⟨zoneId, here⟩)
      · exact List.not_mem_nil
    · exact h.keys key v before

theorem ServletNamesPlain.reload {db : MetaDb} {s s₀ s' : Schema} (h : ServletNamesPlain db s)
    (recorded : SchemaRecorded db) (load : loadSchema db s₀ = some s') :
    ServletNamesPlain db s' where
  known info known := h.known info (known.of_reload recorded load)
  keys key v found := by
    obtain ⟨rs, lists, loaded⟩ := loadSchema_eq recorded s₀
    rw [loaded] at load
    cases Option.some.inj load
    obtain ⟨info, _, same, _, record⟩ := loaded_servletName lists found
    exact ⟨info, same, h.known info (Or.inr record)⟩

theorem reachable_servletNamesPlain (h : Reachable serialises (fun _ e => PlainNames e) r) :
    ServletNamesPlain r.db r.memory.schema := by
  have both : Catalog r.db r.memory.schema ∧ ServletNamesPlain r.db r.memory.schema := by
    refine schema_invariant (I := fun db s => Catalog db s ∧ ServletNamesPlain db s)
      ⟨catalog_empty, servletNamesPlain_empty⟩ ?_ ?_ ?_ h
    · exact fun same inv => ⟨inv.1.frame same, inv.2.frame same⟩
    · intro r request env p inv plain hp
      have step := schemaPlan_step hp
      have names := (step.known r.db).and (inv.2.keys_step plain step)
      refine ⟨Plan.run_preserves (catalog_step inv.1 step), Plan.run_preserves (names.imp ?_)⟩
      intro db' s' ⟨known, keys⟩
      exact ⟨fun info hinfo => inv.2.of_origin plain (known info hinfo), keys⟩
    · intro db s s₀ s' inv start load
      exact ⟨(inv.1.reload start load).1, inv.2.reload inv.1.recorded load⟩
  exact both.2

/-- A servlet that exists goes with its name, its info, its place in the zone's set and
its record, and nothing else; otherwise the request fails and nothing changes. -/
def DropsTarget (request : DiscoveryManagerRequest) (r : Replica) (out : Replica × Reply) : Prop :=
  let key := request.servletInfo.servletKey
  let s := r.memory.schema
  let s' := out.1.memory.schema
  (out.2.errcode = .success ↔ key ∈ s.servlets.idMap) ∧
  (∀ v : Nat, s.servlets.idMap[key]? = some v →
    s'.servlets.idMap = s.servlets.idMap.erase key ∧
    s'.servlets.infoMap = s.servlets.infoMap.erase v ∧
    (∀ z w, s'.zones.servletIds.Has z w ↔ s.zones.servletIds.Has z w ∧
      ¬ (z = s.zones.getZoneId request.servletInfo.zoneKey ∧ w = v)) ∧
    out.1.db = r.db.erase (constructServletKey v) ∧
    s'.zones.idMap = s.zones.idMap ∧ s'.zones.infoMap = s.zones.infoMap ∧
    s'.namespaces = s.namespaces) ∧
  (key ∉ s.servlets.idMap → out.1 = r)

theorem dropServlet_refused {request : DiscoveryManagerRequest} {s : Schema}
    (none : s.servlets.idMap[request.servletInfo.zoneKey]? = none) :
    ∃ errmsg, dropServlet request s = .refuse .inputParamError errmsg s := by
  rw [ServletInfo.zoneKey] at none
  unfold dropServlet
  dsimp only
  split
  next => exact ⟨_, rfl⟩
  next =>
    split
    next => exact ⟨_, rfl⟩
    next =>
      rw [none]
      exact ⟨_, rfl⟩

/-- With plain names no servlet is ever dropped, so the request does what it should
exactly for a servlet that does not exist. -/
theorem drop_target_iff (h : Reachable serialises (fun _ e => PlainNames e) r)
    {request : DiscoveryManagerRequest} {env : Env} (plain : request.Plain)
    (op : request.opType = .opDropServlet) :
    DropsTarget request r (onApply serialises request env r) ↔
      request.servletInfo.servletKey ∉ r.memory.schema.servlets.idMap := by
  have none : r.memory.schema.servlets.idMap[request.servletInfo.zoneKey]? = none :=
    (reachable_servletNamesPlain h).no_zoneKey plain.2.2.1.1 plain.2.2.1.2.1
  obtain ⟨errmsg, refused⟩ := dropServlet_refused none
  have out : onApply serialises request env r = (r, ⟨.inputParamError, errmsg⟩) := by
    have plan : schemaPlan request r.memory.schema =
        some (dropServlet request r.memory.schema) := by
      simp only [schemaPlan, op]
    have handled := handle_of_schemaPlan plan env.now
    rw [refused] at handled
    exact onApply_of_handle handled
  rw [out]
  constructor
  · rintro ⟨answers, _⟩ exists_
    cases answers.mpr exists_
  · intro absent
    refine ⟨⟨fun success => ?_, fun mem => absurd mem absent⟩, ?_, fun _ => rfl⟩
    · cases success
    intro v found
    exact absurd (Table.mem_iff_lookup.mpr ⟨v, found⟩) absent

def dropTill : DiscoveryManagerRequest :=
  { opType := .opDropServlet,
    servletInfo := { namespaceName := ascii "shop", zone := ascii "east",
                     servletName := ascii "till" } }

theorem drop_target_of_missing : ∃ r, Reachable (fun _ => true) (fun _ e => PlainNames e) r ∧
    DropsTarget dropTill r (onApply (fun _ => true) dropTill ⟨0, true⟩ r) := by
  have run : ([namespaceEvent "shop", zoneEvent .opCreateZone "shop" "east",
      servletEvent .opCreateServlet "shop" "east" "cart"].foldlM
        (fun r e => if PlainNames e then Replica.step (fun _ => true) r e else none) {}).map
      (fun r => decide (dropTill.servletInfo.servletKey ∉ r.memory.schema.servlets.idMap)) =
      some true := by decide
  obtain ⟨r, hr, eq⟩ := Option.map_eq_some_iff.mp run
  have reached : Reachable (fun _ => true) (fun _ e => PlainNames e) r := Reach.From.of_checked hr
  exact ⟨r, reached, (drop_target_iff reached (by decide) rfl).mpr (of_decide_eq_true eq)⟩

/-- A servlet is created and cannot be dropped: it is searched under its zone's key. -/
theorem servlet_not_dropped :
    ¬ ∀ r, Reachable (fun _ => true) (fun _ e => PlainNames e) r →
      ∀ (request : DiscoveryManagerRequest) (now : Int), request.Plain →
        request.opType = .opDropServlet →
        DropsTarget request r (onApply (fun _ => true) request ⟨now, true⟩ r) := by
  intro drops
  have run : ([namespaceEvent "shop", zoneEvent .opCreateZone "shop" "east",
      servletEvent .opCreateServlet "shop" "east" "till"].foldlM
        (fun r e => if PlainNames e then Replica.step (fun _ => true) r e else none) {}).map
      (fun r => (decide (dropTill.servletInfo.servletKey ∈ r.memory.schema.servlets.idMap),
        (onApply (fun _ => true) dropTill ⟨0, true⟩ r).2.errcode)) =
      some (true, .inputParamError) := by decide
  obtain ⟨r, hr, eq⟩ := Option.map_eq_some_iff.mp run
  obtain ⟨present, code⟩ := Prod.mk.inj eq
  have reached : Reachable (fun _ => true) (fun _ e => PlainNames e) r := Reach.From.of_checked hr
  obtain ⟨answers, _⟩ := drops r reached dropTill 0 (by decide) rfl
  have success := answers.mpr (of_decide_eq_true present)
  rw [code] at success
  cases success

end EA
