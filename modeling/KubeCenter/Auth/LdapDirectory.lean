import KubeCenter.Auth.Identity

/-! A login and a revalidation against one directory: the first finds the user's entry by the
configured filter under the configured base, the second reads the entry at a name. -/

namespace KubeCenter.Auth

open KubeCenter.Core

/-- `strings.ReplaceAll` of `{0}`. -/
def replacePlaceholder (value : List Char) : List Char → List Char
  | '{' :: '0' :: '}' :: s => value ++ replacePlaceholder value s
  | c :: s => c :: replacePlaceholder value s
  | [] => []

def fillFilter (filter value : String) : String := String.ofList (replacePlaceholder value.toList filter.toList)

/-- What the code does not decide: how a server reads names and filters, and which attributes it
sends. `escapeFilter` is the client library's. Every entry has an object class. -/
structure DirectoryServer where
  Name : Type
  sameName : DecidableEq Name
  parse : String → Option Name
  under : Name → Name → Bool
  satisfies : String → DirectoryEntry → Bool
  objectClass : ∀ entry, satisfies "(objectClass=*)" entry = true
  select : List String → DirectoryEntry → DirectoryEntry
  select_dn : ∀ attributes entry, (select attributes entry).dn = entry.dn
  escapeFilter : String → String

/-- The entries have distinct names. -/
structure Directory (server : DirectoryServer) where
  entries : List DirectoryEntry
  distinct : (entries.map (fun e ↦ server.parse e.dn)).Nodup

inductive SearchScope
  | baseObject
  | wholeSubtree

structure SearchRequest where
  baseDN : String
  scope : SearchScope
  sizeLimit : ℕ
  filter : String
  attributes : List String

structure LDAPUserConfig where
  provider : LDAPProviderConfig
  userBaseDN : String
  userFilter : String
  userAttributes : List String := ["dn", "uid", "mail", "cn", "sAMAccountName", "memberOf"]

/-- What holds of the connection during one call. -/
structure DirectoryLink where
  connected : Bool := true
  serviceBound : Bool := true
  answers : Bool := true
  userBound : Bool := true
  rebound : Bool := true
  groupsAnswer : Bool := true

namespace DirectoryServer

variable (server : DirectoryServer)

instance : DecidableEq server.Name := server.sameName

def inScope (base : server.Name) : SearchScope → server.Name → Bool
  | .baseObject, name => decide (name = base)
  | .wholeSubtree, name => server.under base name

/-- The entry stands in the scope of the search, whose base is a name. -/
def reaches (req : SearchRequest) (entry : DirectoryEntry) : Bool :=
  (server.parse req.baseDN).any (fun base ↦ (server.parse entry.dn).any (server.inScope base req.scope))

variable {server}

def hits (d : Directory server) (req : SearchRequest) : List DirectoryEntry :=
  d.entries.filter (fun entry ↦ server.reaches req entry && server.satisfies req.filter entry)

/-- An answer over the size limit is an error. A missing base, an error too, is an empty answer
here: no caller gets a user from either. -/
def search (d : Directory server) (req : SearchRequest) : Option (List DirectoryEntry) :=
  if (hits d req).length ≤ req.sizeLimit then some ((hits d req).map (server.select req.attributes)) else none

end DirectoryServer

namespace LDAPUserConfig

variable (server : DirectoryServer) (config : LDAPUserConfig)

def userSearch (username : String) : SearchRequest where
  baseDN := config.userBaseDN
  scope := .wholeSubtree
  sizeLimit := 2
  filter := fillFilter config.userFilter (server.escapeFilter username)
  attributes := config.userAttributes

def revalidationSearch (userDN : String) : SearchRequest where
  baseDN := userDN
  scope := .baseObject
  sizeLimit := 2
  filter := "(objectClass=*)"
  attributes := config.userAttributes

def groupSearch (userDN : String) : SearchRequest where
  baseDN := config.provider.groupBaseDN
  scope := .wholeSubtree
  sizeLimit := 100
  filter := fillFilter config.provider.groupFilter (server.escapeFilter userDN)
  attributes := [config.provider.groupNameAttr]

variable {server}

def groupsOf (link : DirectoryLink) (d : Directory server) (userDN : String) : Option (List DirectoryEntry) :=
  if link.groupsAnswer then server.search d (config.groupSearch server userDN) else none

/-- What the directory answers to the two searches of a call, the groups of `userDN` being asked for. -/
def conversation (link : DirectoryLink) (d : Directory server) (req : SearchRequest) (userDN : String) :
    LDAPConversation where
  connected := link.connected
  serviceBound := link.serviceBound
  entries := if link.answers then server.search d req else none
  userBound := link.userBound
  rebound := link.rebound
  groupSearch := config.groupsOf link d userDN

/-- The name a login takes from the entry it found. -/
def foundDN (d : Directory server) (req : SearchRequest) : String :=
  ((server.search d req).bind List.head?).elim "" DirectoryEntry.dn

def authenticate (link : DirectoryLink) (d : Directory server) (username : String) : Option User :=
  ldapAuthenticate config.provider username
    (config.conversation link d (config.userSearch server username)
      (foundDN d (config.userSearch server username)))

def revalidate (link : DirectoryLink) (d : Directory server) (userDN : String) : Option User :=
  ldapRevalidate config.provider userDN (config.conversation link d (config.revalidationSearch userDN) userDN)

/-- The search of a login with some username returns the entry. -/
def LoginReturns (d : Directory server) (entry : DirectoryEntry) : Prop :=
  ∃ username, usernameAllowlist username ∧
    ∃ found, server.search d (config.userSearch server username) = some found ∧ entry ∈ found

/-- A user a revalidation returns comes from an entry that a login would have found. -/
def NoWeaker (d : Directory server) (userDN : String) : Prop :=
  ∀ link user, config.revalidate link d userDN = some user →
    ∃ entry, server.search d (config.revalidationSearch userDN) = some [entry] ∧ config.LoginReturns d entry

/-- A login that found the entry at the name, and a revalidation of it, are the same user where
the groups answer alike. -/
def SameIdentity (d : Directory server) (userDN : String) : Prop :=
  ∀ link link' username user user', link.groupsAnswer = link'.groupsAnswer →
    config.authenticate link d username = some user →
    user.id = "ldap:" ++ config.provider.identity.id ++ ":" ++ userDN →
    config.revalidate link' d userDN = some user' → user' = user

/-- The entry lies under the base of the users and satisfies their filter for some username, with
at most one entry beside it that does. -/
def Admits (d : Directory server) (entry : DirectoryEntry) : Prop :=
  ∃ username, usernameAllowlist username ∧ server.reaches (config.userSearch server username) entry ∧
    server.satisfies (config.userSearch server username).filter entry ∧
    (server.hits d (config.userSearch server username)).length ≤ 2

/-- No entry at the name is one that the configuration of the users excludes. -/
def ExcludesNone (d : Directory server) (userDN : String) : Prop :=
  userDN ≠ "" → ∀ entry ∈ d.entries, server.reaches (config.revalidationSearch userDN) entry →
    config.Admits d entry

variable {config} {d : Directory server} {userDN : String} {entry : DirectoryEntry}

theorem reaches_revalidation : server.reaches (config.revalidationSearch userDN) entry ↔
    (server.parse userDN).isSome ∧ server.parse entry.dn = server.parse userDN := by
  unfold DirectoryServer.reaches
  change (server.parse userDN).any _ = true ↔ _
  cases server.parse userDN with
  | none => simp
  | some base =>
    cases server.parse entry.dn with
    | none => simp
    | some name =>
      change decide (name = base) = true ↔ _
      simp

theorem eq_singleton_of_nodup {α : Type} {a : α} {l : List α} (hn : l.Nodup) (ha : a ∈ l)
    (hall : ∀ b ∈ l, b = a) : l = [a] := by
  have hrep := List.eq_replicate_iff.mpr ⟨rfl, hall⟩
  have hle : l.length ≤ 1 := by
    rw [hrep] at hn
    exact List.nodup_replicate.mp hn
  have hpos := List.length_pos_of_mem ha
  rw [hrep, show l.length = 1 by omega]
  rfl

/-- At most one entry has the name. -/
theorem hits_revalidation (he : entry ∈ d.entries)
    (hr : server.reaches (config.revalidationSearch userDN) entry) :
    server.hits d (config.revalidationSearch userDN) = [entry] := by
  have hname := (reaches_revalidation.mp hr).2
  have hall : ∀ e ∈ server.hits d (config.revalidationSearch userDN), e = entry := fun e hm ↦ by
    obtain ⟨hmem, hcond⟩ := List.mem_filter.mp hm
    have hsame := (reaches_revalidation.mp (Bool.and_eq_true_iff.mp hcond).1).2
    exact List.inj_on_of_nodup_map d.distinct hmem he (hsame.trans hname.symm)
  have hin : entry ∈ server.hits d (config.revalidationSearch userDN) :=
    List.mem_filter.mpr ⟨he, Bool.and_eq_true_iff.mpr ⟨hr, server.objectClass entry⟩⟩
  have hnodup : (server.hits d (config.revalidationSearch userDN)).Nodup :=
    (List.Nodup.of_map _ d.distinct).filter _
  exact eq_singleton_of_nodup hnodup hin hall

theorem search_revalidation (he : entry ∈ d.entries)
    (hr : server.reaches (config.revalidationSearch userDN) entry) :
    server.search d (config.revalidationSearch userDN) =
      some [server.select config.userAttributes entry] := by
  unfold DirectoryServer.search
  rw [hits_revalidation he hr]
  exact if_pos (by decide : 1 ≤ 2)

/-- What a search returns stands in the directory, reached and satisfying the filter. -/
theorem mem_search {req : SearchRequest} {found : List DirectoryEntry} {e : DirectoryEntry}
    (hs : server.search d req = some found) (he : e ∈ found) :
    (server.hits d req).length ≤ req.sizeLimit ∧
      ∃ entry ∈ d.entries, server.reaches req entry ∧ server.satisfies req.filter entry ∧
        server.select req.attributes entry = e := by
  unfold DirectoryServer.search at hs
  split at hs
  · next hlen =>
    cases hs
    obtain ⟨entry, hm, rfl⟩ := List.mem_map.mp he
    obtain ⟨hmem, hcond⟩ := List.mem_filter.mp hm
    obtain ⟨hr, hf⟩ := Bool.and_eq_true_iff.mp hcond
    exact ⟨hlen, entry, hmem, hr, hf, rfl⟩
  · cases hs

theorem eq_of_dn_eq {e e' : DirectoryEntry} (he : e ∈ d.entries) (he' : e' ∈ d.entries)
    (h : e.dn = e'.dn) : e = e' :=
  List.inj_on_of_nodup_map d.distinct he he' (congrArg server.parse h)

theorem loginReturns_iff (he : entry ∈ d.entries) :
    config.LoginReturns d (server.select config.userAttributes entry) ↔ config.Admits d entry := by
  constructor
  · rintro ⟨username, hu, found, hs, hm⟩
    obtain ⟨hlen, e, hmem, hr, hf, hsel⟩ := mem_search hs hm
    have hdn : e.dn = entry.dn := by
      rw [← server.select_dn config.userAttributes e, ← server.select_dn config.userAttributes entry]
      exact congrArg DirectoryEntry.dn hsel
    obtain rfl := eq_of_dn_eq hmem he hdn
    exact ⟨username, hu, hr, hf, hlen⟩
  · rintro ⟨username, hu, hr, hf, hlen⟩
    have hhit : entry ∈ server.hits d (config.userSearch server username) :=
      List.mem_filter.mpr ⟨he, Bool.and_eq_true_iff.mpr ⟨hr, hf⟩⟩
    exact ⟨username, hu, _, if_pos hlen, List.mem_map_of_mem hhit⟩

variable {link : DirectoryLink} {user : User}

variable (config) in
/-- The user an entry comes to, with the groups asked for under a name. -/
def identityOf (link : DirectoryLink) (d : Directory server) (userDN : String) (entry : DirectoryEntry) : User :=
  let sent := server.select config.userAttributes entry
  mapToUser config.provider.identity sent.mapped (getGroups config.provider sent (config.groupsOf link d userDN))

theorem foundUser_conversation {req : SearchRequest} (ha : req.attributes = config.userAttributes)
    (h : foundUser config.provider (config.conversation link d req userDN) = some user) :
    ∃ entry ∈ d.entries, server.reaches req entry ∧ server.search d req = some [server.select req.attributes entry] ∧
      user = config.identityOf link d userDN entry := by
  unfold foundUser at h
  split at h
  · next e he =>
    change (if link.answers then server.search d req else none) = some [e] at he
    split at he
    · obtain ⟨-, entry, hm, hr, -, rfl⟩ := mem_search he List.mem_cons_self
      rw [ha] at h
      exact ⟨entry, hm, hr, he, (Option.some.inj h).symm⟩
    · cases he
  · cases h

/-- A revalidation that returns a user read the one entry at the name. -/
theorem revalidate_eq_some (h : config.revalidate link d userDN = some user) :
    userDN ≠ "" ∧ ∃ entry ∈ d.entries, server.reaches (config.revalidationSearch userDN) entry ∧
      user = config.identityOf link d userDN entry := by
  unfold revalidate ldapRevalidate at h
  split at h
  · next hc =>
    obtain ⟨entry, hm, hr, -, hu⟩ := foundUser_conversation rfl h
    exact ⟨hc.1, entry, hm, hr, hu⟩
  · cases h

theorem revalidate_of_entry (hne : userDN ≠ "") (he : entry ∈ d.entries)
    (hr : server.reaches (config.revalidationSearch userDN) entry) :
    config.revalidate {} d userDN = some (config.identityOf {} d userDN entry) := by
  have hentries : (config.conversation {} d (config.revalidationSearch userDN) userDN).entries =
      some [server.select config.userAttributes entry] := search_revalidation he hr
  unfold revalidate ldapRevalidate
  rw [if_pos ⟨hne, rfl, rfl⟩, foundUser, hentries]
  rfl

theorem authenticate_eq_some {username : String} (h : config.authenticate link d username = some user) :
    ∃ entry ∈ d.entries, user = config.identityOf link d entry.dn entry := by
  unfold authenticate ldapAuthenticate at h
  split at h
  · obtain ⟨entry, hm, -, hs, hu⟩ := foundUser_conversation rfl h
    have hdn : foundDN d (config.userSearch server username) = entry.dn := by
      rw [foundDN, hs]
      exact server.select_dn _ entry
    exact ⟨entry, hm, hdn ▸ hu⟩
  · cases h

theorem noWeaker_iff : config.NoWeaker d userDN ↔ config.ExcludesNone d userDN := by
  constructor
  · intro h hne entry he hr
    obtain ⟨e, hs, hlogin⟩ := h {} _ (revalidate_of_entry hne he hr)
    rw [search_revalidation he hr] at hs
    cases hs
    exact (loginReturns_iff he).mp hlogin
  · intro h link user hu
    obtain ⟨hne, entry, he, hr, -⟩ := revalidate_eq_some hu
    exact ⟨_, search_revalidation he hr, (loginReturns_iff he).mpr (h hne entry he hr)⟩

theorem sameIdentity (config : LDAPUserConfig) (d : Directory server) (userDN : String) :
    config.SameIdentity d userDN := by
  intro link link' username user user' hgroups hlogin hid hrefresh
  obtain ⟨entry, he, rfl⟩ := authenticate_eq_some hlogin
  obtain ⟨-, entry', he', hr', rfl⟩ := revalidate_eq_some hrefresh
  have hdn : entry.dn = userDN := by
    rw [← server.select_dn config.userAttributes entry]
    exact (String.append_right_inj _).mp hid
  have hname := (reaches_revalidation.mp hr').2
  obtain rfl := List.inj_on_of_nodup_map d.distinct he he' (hname ▸ congrArg server.parse hdn)
  rw [hdn, identityOf, identityOf, groupsOf, groupsOf, hgroups]

theorem revalidation_agrees_iff (config : LDAPUserConfig) (d : Directory server) (userDN : String) :
    (config.NoWeaker d userDN ∧ config.SameIdentity d userDN) ↔ config.ExcludesNone d userDN := by
  rw [noWeaker_iff]
  exact and_iff_left (sameIdentity config d userDN)

end LDAPUserConfig

/-- A server that reads the one filter of `activeUsers`, with a user name in it. -/
def activeServer : DirectoryServer where
  Name := String
  sameName := inferInstance
  parse := some
  under := fun base name ↦ base.toList.isSuffixOf name.toList
  satisfies := fun filter entry ↦ filter = "(objectClass=*)" ||
    (entry.attributes "uid").any (fun uid ↦ filter = "(&(uid=" ++ uid ++ ")(active=TRUE))") &&
      (entry.attributes "active").contains "TRUE"
  objectClass := fun _ ↦ rfl
  select := fun attributes entry ↦
    { entry with attributes := fun a ↦ if a ∈ attributes then entry.attributes a else [] }
  select_dn := fun _ _ ↦ rfl
  escapeFilter := id

def activeUsers : LDAPUserConfig where
  provider := { identity := { id := "corp" } }
  userBaseDN := "ou=people"
  userFilter := "(&(uid=\x7b0\x7d)(active=TRUE))"

def disabledAnn : DirectoryEntry where
  dn := "uid=ann,ou=people"
  attributes := fun a ↦ if a = "uid" then ["ann"] else if a = "active" then ["FALSE"] else []

def afterDisabling : Directory activeServer where
  entries := [disabledAnn]
  distinct := List.nodup_singleton _

/-- An account that the filter excludes since its login is revalidated. -/
theorem not_revalidation_agrees : ¬∀ (server : DirectoryServer) (config : LDAPUserConfig)
    (d : Directory server) (userDN : String), config.NoWeaker d userDN ∧ config.SameIdentity d userDN := by
  intro h
  have hnone := LDAPUserConfig.noWeaker_iff.mp (h activeServer activeUsers afterDisabling "uid=ann,ou=people").1
  have hreach : activeServer.reaches (activeUsers.revalidationSearch "uid=ann,ou=people") disabledAnn :=
    LDAPUserConfig.reaches_revalidation.mpr ⟨rfl, rfl⟩
  obtain ⟨username, -, -, hfilter, -⟩ := hnone (by decide) disabledAnn List.mem_cons_self hreach
  rcases Bool.or_eq_true_iff.mp hfilter with hp | hactive
  · have htext := congrArg String.toList (of_decide_eq_true hp)
    change (fillFilter activeUsers.userFilter username).toList = "(objectClass=*)".toList at htext
    rw [fillFilter, String.toList_ofList] at htext
    exact absurd (List.cons.inj (List.cons.inj htext).2).1 (by decide)
  · exact absurd (Bool.and_eq_true_iff.mp hactive).2 (by decide)

end KubeCenter.Auth
