import EA.DiscoveryQuery

namespace EA

open ByteString
open scoped List

/-- All entries of the nested maps, in the order in which the answer lists them. -/
def NamespacePrivileges.entries (m : NamespacePrivileges) : List QueryUserPrivilege :=
  m.vals.flatMap fun entries => entries.map Prod.snd

theorem insertMulti_perm (entry : Bytes × QueryUserPrivilege)
    (entries : List (Bytes × QueryUserPrivilege)) :
    (insertMulti entry entries).Perm (entry :: entries) := by
  induction entries with
  | nil => exact List.Perm.refl _
  | cons head rest ih =>
    unfold insertMulti
    split
    next => exact List.Perm.refl _
    next => exact (ih.cons head).trans (List.Perm.swap entry head rest)

theorem entries_eq (m : NamespacePrivileges) :
    m.entries = m.toList.flatMap fun e => e.2.map Prod.snd := by
  rw [NamespacePrivileges.entries, Table.vals, List.flatMap_map]

theorem entries_insert_perm (m : NamespacePrivileges) (namespaceName : Bytes)
    (entries : List (Bytes × QueryUserPrivilege)) :
    (NamespacePrivileges.entries (m.insert namespaceName entries)).Perm
      (entries.map Prod.snd ++ NamespacePrivileges.entries (m.erase namespaceName)) := by
  rw [entries_eq, entries_eq]
  exact (Table.toList_insert_perm m namespaceName entries).flatMap_right _

theorem entries_perm_erase (m : NamespacePrivileges) (namespaceName : Bytes) :
    m.entries.Perm ((m.getD namespaceName []).map Prod.snd ++
      NamespacePrivileges.entries (m.erase namespaceName)) := by
  rw [entries_eq, entries_eq, Table.getD_eq]
  cases found : m[namespaceName]? with
  | none =>
    rw [Table.erase_of_none found]
    exact List.Perm.refl _
  | some entries => exact (Table.toList_perm_of_lookup found).flatMap_right _

/-- The map of a namespace is copied, grows by one entry and is written back. -/
theorem addFlattened_perm (m : NamespacePrivileges) (p : QueryUserPrivilege) :
    (addFlattened m p).entries.Perm (p :: m.entries) := by
  have grown := (insertMulti_perm (p.username, p) (m.getD p.namespaceName [])).map Prod.snd
  calc (addFlattened m p).entries
    _ ~ _ ++ NamespacePrivileges.entries (m.erase p.namespaceName) := entries_insert_perm m _ _
    _ ~ p :: ((m.getD p.namespaceName []).map Prod.snd ++
        NamespacePrivileges.entries (m.erase p.namespaceName)) := grown.append_right _
    _ ~ p :: m.entries := ((entries_perm_erase m p.namespaceName).symm).cons p

theorem foldl_addFlattened_perm (ps : List QueryUserPrivilege) (m : NamespacePrivileges) :
    (ps.foldl addFlattened m).entries.Perm (ps ++ m.entries) := by
  induction ps generalizing m with
  | nil => exact List.Perm.refl _
  | cons p ps ih =>
    calc (ps.foldl addFlattened (addFlattened m p)).entries
      _ ~ ps ++ (addFlattened m p).entries := ih (addFlattened m p)
      _ ~ ps ++ p :: m.entries := (addFlattened_perm m p).append_left ps
      _ ~ p :: (ps ++ m.entries) := List.perm_middle

theorem foldl_construct_perm (users : List UserPrivilege) (m : NamespacePrivileges) :
    (users.foldl constructQueryResponseForServletPrivilege m).entries.Perm
      (users.flatMap flattenUser ++ m.entries) := by
  induction users generalizing m with
  | nil => exact List.Perm.refl _
  | cons user users ih =>
    have first := foldl_addFlattened_perm (flattenUser user) m
    calc (users.foldl constructQueryResponseForServletPrivilege _).entries
      _ ~ users.flatMap flattenUser ++ (constructQueryResponseForServletPrivilege m user).entries :=
        ih _
      _ ~ users.flatMap flattenUser ++ (flattenUser user ++ m.entries) := first.append_left _
      _ ~ flattenUser user ++ (users.flatMap flattenUser ++ m.entries) := by
        rw [← List.append_assoc, ← List.append_assoc]
        exact List.perm_append_comm.append_right _
      _ = (user :: users).flatMap flattenUser ++ m.entries := by
        rw [List.flatMap_cons, List.append_assoc]

/-- The user name as the query reads it. -/
def DiscoveryQueryRequest.trimmedUser (request : DiscoveryQueryRequest) (trim : Bytes → Bytes) :
    Bytes :=
  trim (request.userName.getD [])

/-- The namespace name as the query reads it. -/
def DiscoveryQueryRequest.trimmedNamespace (request : DiscoveryQueryRequest)
    (trim : Bytes → Bytes) : Bytes :=
  trim (request.namespaceName.getD [])

def DiscoveryQueryRequest.NamesUser (request : DiscoveryQueryRequest) (trim : Bytes → Bytes)
    (e : Bytes × UserPrivilege) : Prop :=
  request.trimmedUser trim ≠ [] ∧ e.1 = request.trimmedUser trim

def DiscoveryQueryRequest.NamesNamespace (request : DiscoveryQueryRequest)
    (trim : Bytes → Bytes) (e : Bytes × UserPrivilege) : Prop :=
  request.trimmedNamespace trim ≠ [] ∧ e.2.namespaceName = request.trimmedNamespace trim

/-- The user is the named one or in the named namespace, or neither is given. -/
def DiscoveryQueryRequest.Selects (request : DiscoveryQueryRequest) (trim : Bytes → Bytes)
    (e : Bytes × UserPrivilege) : Prop :=
  request.trimmedUser trim = [] ∧ request.trimmedNamespace trim = [] ∨
    request.NamesUser trim e ∨ request.NamesNamespace trim e

section Selection

variable (request : DiscoveryQueryRequest) (trim : Bytes → Bytes)

instance : DecidablePred (request.NamesUser trim) := fun _ =>
  inferInstanceAs (Decidable (_ ∧ _))

instance : DecidablePred (request.NamesNamespace trim) := fun _ =>
  inferInstanceAs (Decidable (_ ∧ _))

instance : DecidablePred (request.Selects trim) := fun _ =>
  inferInstanceAs (Decidable (_ ∧ _ ∨ _ ∨ _))

end Selection

/-- What an answer says of a right on a whole zone. -/
def UserPrivilege.zoneRight (user : UserPrivilege) (p : PrivilegeZone) : QueryUserPrivilege where
  username := user.username
  namespaceName := user.namespaceName
  servletRw := p.rw
  privilege := p.zone ++ ascii ".*"

/-- What an answer says of a right on one servlet. -/
def UserPrivilege.servletRight (user : UserPrivilege) (p : PrivilegeServlet) :
    QueryUserPrivilege where
  username := user.username
  namespaceName := user.namespaceName
  servletRw := p.rw
  privilege := p.zone ++ ascii "." ++ p.servletName

/-- The rights of a user: one for each of its zone entries and one for each servlet entry. -/
def UserPrivilege.rights (user : UserPrivilege) : List QueryUserPrivilege :=
  user.privilegeZone.map user.zoneRight ++ user.privilegeServlet.map user.servletRight

/-- The rights of the users that satisfy `p`, each once. -/
def privilegesOf (users : UserTable) (p : Bytes × UserPrivilege → Prop) [DecidablePred p] :
    List QueryUserPrivilege :=
  (users.toList.filter p).flatMap fun e => e.2.rights

theorem flattenUser_eq (user : UserPrivilege) : flattenUser user = user.rights := rfl

theorem filter_key (users : UserTable) (name : Bytes) :
    (users.toList.filter fun e => e.1 = name).map Prod.snd ~ (users[name]?).toList := by
  have others : ∀ m : UserTable, m[name]? = none → m.toList.filter (fun e => e.1 = name) = [] := by
    intro m absent
    rw [List.filter_eq_nil_iff]
    rintro ⟨key, user⟩ mem
    have found := Std.ExtTreeMap.mem_toList_iff_getElem?_eq_some.mp mem
    rw [decide_eq_true_eq]
    rintro rfl
    rw [absent] at found
    simp at found
  cases found : users[name]? with
  | none =>
    rw [others users found]
    exact List.Perm.refl _
  | some user =>
    have perm := (Table.toList_perm_of_lookup found).filter fun e => decide (e.1 = name)
    rw [List.filter_cons_of_pos (by simp), others _ (Table.lookup_erase_self users name)] at perm
    exact perm.map Prod.snd

theorem filter_append_filter (l : List (Bytes × UserPrivilege))
    (p q : Bytes × UserPrivilege → Prop) [DecidablePred p] [DecidablePred q] :
    l.filter p ++ l.filter q ~ l.filter (fun e => p e ∨ q e) ++ l.filter fun e => p e ∧ q e := by
  have both := Multiset.filter_add_filter p q (l : Multiset (Bytes × UserPrivilege))
  exact Multiset.coe_eq_coe.mp both

section Visits

variable (trim : Bytes → Bytes) (order : HashOrder) (request : DiscoveryQueryRequest)
  (users : UserTable)

theorem visit_named :
    (if request.trimmedUser trim ≠ [] then (users[request.trimmedUser trim]?).toList else []) ~
      (users.toList.filter (request.NamesUser trim)).map Prod.snd := by
  split
  next given =>
    have same : users.toList.filter (request.NamesUser trim) =
        users.toList.filter fun e => e.1 = request.trimmedUser trim := by
      apply List.filter_congr
      intro e _
      simp [DiscoveryQueryRequest.NamesUser, given]
    rw [same]
    exact (filter_key users (request.trimmedUser trim)).symm
  next blank =>
    rw [List.filter_eq_nil_iff.mpr fun e _ => by simp [DiscoveryQueryRequest.NamesUser, blank]]
    exact List.Perm.refl _

theorem visit_namespace :
    (if request.trimmedNamespace trim ≠ [] then
      (order.walk users.vals).filter (·.namespaceName = request.trimmedNamespace trim) else []) ~
      (users.toList.filter (request.NamesNamespace trim)).map Prod.snd := by
  split
  next given =>
    have same : users.toList.filter (request.NamesNamespace trim) =
        users.toList.filter fun e => e.2.namespaceName = request.trimmedNamespace trim := by
      apply List.filter_congr
      intro e _
      simp [DiscoveryQueryRequest.NamesNamespace, given]
    refine ((order.walk_perm users.vals).filter _).trans ?_
    rw [same, Table.vals, List.filter_map]
    exact List.Perm.refl _
  next blank =>
    rw [List.filter_eq_nil_iff.mpr fun e _ => by
      simp [DiscoveryQueryRequest.NamesNamespace, blank]]
    exact List.Perm.refl _

/-- Whatever users the loops visit, the answer lists the rights of each visit. -/
theorem visits_entries {visits : List UserPrivilege} {l : List (Bytes × UserPrivilege)}
    (perm : visits ~ l.map Prod.snd) :
    (visits.foldl constructQueryResponseForServletPrivilege ∅).entries ~
      l.flatMap fun e => e.2.rights := by
  have answer := foldl_construct_perm visits ∅
  rw [show NamespacePrivileges.entries ∅ = [] by rfl, List.append_nil] at answer
  refine answer.trans ((perm.flatMap_right flattenUser).trans (.of_eq ?_))
  simp only [List.flatMap_map, flattenUser_eq]

end Visits

/-- The loops visit the selected users, and once more a user that both names lead to. -/
theorem flatten_perm (trim : Bytes → Bytes) (order : HashOrder) (request : DiscoveryQueryRequest)
    (users : UserTable) :
    (getFlattenServletPrivilege trim order request users).flattenPrivileges ~
      privilegesOf users (request.Selects trim) ++
        privilegesOf users fun e => request.NamesUser trim e ∧ request.NamesNamespace trim e := by
  rw [privilegesOf, privilegesOf, ← List.flatMap_append]
  apply visits_entries
  by_cases neither : request.trimmedUser trim = [] ∧ request.trimmedNamespace trim = []
  · have all : users.toList.filter (request.Selects trim) = users.toList :=
      List.filter_eq_self.mpr fun e _ => decide_eq_true (Or.inl neither)
    have twice : users.toList.filter
        (fun e => request.NamesUser trim e ∧ request.NamesNamespace trim e) = [] := by
      rw [List.filter_eq_nil_iff]
      intro e _
      simp [DiscoveryQueryRequest.NamesUser, neither.1]
    obtain ⟨noUser, noNamespace⟩ := neither
    rw [DiscoveryQueryRequest.trimmedUser] at noUser
    rw [DiscoveryQueryRequest.trimmedNamespace] at noNamespace
    rw [all, twice, List.append_nil]
    simpa [noUser, noNamespace, Table.vals] using order.walk_perm users.vals
  · have someone : users.toList.filter (request.Selects trim) =
        users.toList.filter fun e => request.NamesUser trim e ∨ request.NamesNamespace trim e := by
      apply List.filter_congr
      intro e _
      simp [DiscoveryQueryRequest.Selects, neither]
    have named := visit_named trim request users
    have inNamespace := visit_namespace trim order request users
    rw [someone]
    have merged := (filter_append_filter users.toList (request.NamesUser trim)
      (request.NamesNamespace trim)).map Prod.snd
    rw [List.map_append] at merged
    rw [DiscoveryQueryRequest.trimmedUser, DiscoveryQueryRequest.trimmedNamespace] at neither
    rw [if_neg neither, List.nil_append]
    exact (named.append inNamespace).trans merged

/-- The order in which the hash maps are walked shows in the order of an answer's lists only. -/
theorem discoveryQuery_shuffles (trim : Bytes → Bytes) (order order' : HashOrder)
    (q : DiscoveryQueryRequest) (m : Memory) :
    (discoveryQuery trim order q m).Shuffles (discoveryQuery trim order' q m) := by
  have walks : ∀ {α : Type} (l : List α), order.walk l ~ order'.walk l :=
    fun l => (order.walk_perm l).trans (order'.walk_perm l).symm
  have same := DiscoveryQueryResponse.Shuffles.refl
  unfold discoveryQuery
  cases q.opType with
  | queryUserPrivilege =>
    dsimp only [getUserInfo]
    cases q.userName with
    | none => exact { same {} with userPrivilege := walks _ }
    | some name => exact same _
  | queryNamespace =>
    dsimp only [getNamespaceInfo]
    cases q.namespaceName with
    | none => exact { same {} with namespaceInfos := walks _ }
    | some name => exact same _
  | queryZone =>
    dsimp only [getZoneInfo]
    cases q.zone with
    | none => exact { same {} with zoneInfos := walks _ }
    | some zone => exact same _
  | queryServlet =>
    dsimp only [getServletInfo]
    cases q.servlet with
    | none => exact { same {} with servletInfos := walks _ }
    | some servlet => exact same _
  | queryListConfig => exact { same {} with configInfos := (walks _).map _ }
  | queryPrivilegeFlatten =>
    exact { same {} with
      flattenPrivileges := (flatten_perm trim order q m.users).trans
        (flatten_perm trim order' q m.users).symm }
  | queryInstanceFlatten =>
    have indexed : ∀ index key errmsg,
        (flattenIndexed order m.instances index key errmsg).Shuffles
          (flattenIndexed order' m.instances index key errmsg) := by
      intro index key errmsg
      unfold flattenIndexed
      cases index[key]? with
      | none => exact same _
      | some addresses => exact { same {} with flattenInstances := (walks _).map _ }
    dsimp only [queryInstanceFlatten]
    split
    next => exact { same {} with flattenInstances := (walks _).map _ }
    next =>
      split
      next => exact indexed _ _ _
      next =>
        split
        next => exact indexed _ _ _
        next => exact indexed _ _ _
  | queryGetConfig | queryListConfigVersion | queryInstance | other => exact same _

/-- A user whom the request names has privileges and is in the namespace it names. -/
def NamedTwice (trim : Bytes → Bytes) (request : DiscoveryQueryRequest) (users : UserTable) :
    Prop :=
  request.trimmedUser trim ≠ [] ∧ request.trimmedNamespace trim ≠ [] ∧ ∃ user : UserPrivilege,
    users[request.trimmedUser trim]? = some user ∧
      user.namespaceName = request.trimmedNamespace trim ∧
      (user.privilegeZone ≠ [] ∨ user.privilegeServlet ≠ [])

theorem rights_eq_nil {user : UserPrivilege} :
    user.rights = [] ↔ user.privilegeZone = [] ∧ user.privilegeServlet = [] := by
  rw [UserPrivilege.rights, List.append_eq_nil_iff, List.map_eq_nil_iff, List.map_eq_nil_iff]

theorem repeated_eq_nil {trim : Bytes → Bytes} {request : DiscoveryQueryRequest}
    {users : UserTable} :
    privilegesOf users (fun e => request.NamesUser trim e ∧ request.NamesNamespace trim e) = [] ↔
      ¬ NamedTwice trim request users := by
  rw [privilegesOf, List.flatMap_eq_nil_iff]
  constructor
  · rintro empty ⟨userGiven, namespaceGiven, user, found, inside, some⟩
    have mem := Std.ExtTreeMap.mem_toList_iff_getElem?_eq_some.mpr found
    have twice : request.NamesUser trim (request.trimmedUser trim, user) ∧
        request.NamesNamespace trim (request.trimmedUser trim, user) :=
      ⟨⟨userGiven, rfl⟩, ⟨namespaceGiven, inside⟩⟩
    have none := empty _ (List.mem_filter.mpr ⟨mem, decide_eq_true twice⟩)
    obtain ⟨noZone, noServlet⟩ := rights_eq_nil.mp none
    rcases some with zone | servlet
    · exact zone noZone
    · exact servlet noServlet
  · rintro once ⟨key, user⟩ mem
    obtain ⟨mem, twice⟩ := List.mem_filter.mp mem
    obtain ⟨⟨userGiven, named⟩, namespaceGiven, inside⟩ := of_decide_eq_true twice
    have found := Std.ExtTreeMap.mem_toList_iff_getElem?_eq_some.mp mem
    rw [show key = request.trimmedUser trim from named] at found
    rw [rights_eq_nil]
    by_contra some
    exact once ⟨userGiven, namespaceGiven, user, found, inside, not_and_or.mp some⟩

theorem not_namedTwice_of_once {trim : Bytes → Bytes} {order : HashOrder}
    {request : DiscoveryQueryRequest} {users : UserTable}
    (once : (getFlattenServletPrivilege trim order request users).flattenPrivileges ~
      privilegesOf users (request.Selects trim)) : ¬ NamedTwice trim request users := by
  have answer := flatten_perm trim order request users
  have lengths := (answer.symm.trans once).length_eq
  rw [List.length_append] at lengths
  rw [← repeated_eq_nil]
  exact List.eq_nil_of_length_eq_zero (by omega)

/-- The answer lists the privileges of the selected users once each, unless the named
user has some and is in the named namespace. -/
theorem flatten_once_iff (trim : Bytes → Bytes) (order : HashOrder)
    (request : DiscoveryQueryRequest) (users : UserTable) :
    (getFlattenServletPrivilege trim order request users).flattenPrivileges ~
      privilegesOf users (request.Selects trim) ↔ ¬ NamedTwice trim request users := by
  refine ⟨not_namedTwice_of_once, fun single => ?_⟩
  have answer := flatten_perm trim order request users
  rwa [repeated_eq_nil.mpr single, List.append_nil] at answer

def bob : UserPrivilege where
  username := [98]
  namespaceName := [110]
  privilegeZone := [{ zone := [122], zoneId := 1 }]

/-- A name with no white space in it. -/
def Blankless (name : Bytes) : Prop := ∀ c ∈ name, c ≠ 0x20 ∧ (c < 0x09 ∨ 0x0d < c)

/-- Asked about bob and about his namespace at once, the server tells his right twice,
however white space is trimmed. -/
theorem bob_listed_twice :
    ¬ ∃ trim : Bytes → Bytes, (∀ name, Blankless name → trim name = name) ∧
      ∀ (order : HashOrder) (request : DiscoveryQueryRequest) (users : UserTable),
        (getFlattenServletPrivilege trim order request users).flattenPrivileges ~
          privilegesOf users (request.Selects trim) := by
  rintro ⟨trim, keeps, always⟩
  let request : DiscoveryQueryRequest :=
    { opType := .queryPrivilegeFlatten, userName := some [98], namespaceName := some [110] }
  have named : request.trimmedUser trim = [98] := keeps [98] (by simp [Blankless])
  have inside : request.trimmedNamespace trim = [110] := keeps [110] (by simp [Blankless])
  have twice : NamedTwice trim request ((∅ : UserTable).insert [98] bob) := by
    rw [NamedTwice, named, inside]
    exact ⟨by decide, by decide, bob, by simp, rfl, Or.inl (by decide)⟩
  exact not_namedTwice_of_once (always .keyOrder request _) twice

end EA
