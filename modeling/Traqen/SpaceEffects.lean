-- What one operation on spaces and roles can do: the accounts, the grants and the spaces after an
-- accepted operation, with what it demanded of the caller.
import Traqen.SpaceRoles

open Js

namespace Traqen.SpaceRoles

/-! ## Checks that are passed -/

variable {code id message workspaceId : String}

theorem demand_bind {β : Type} {condition : Prop} [Decidable condition]
    {status : Nat} {f : Unit → Except AuthError β} {v : β}
    (h : demand condition code message status >>= f = .ok v) : condition ∧ f () = .ok v := by
  unfold demand at h
  by_cases hcondition : condition
  · rw [if_pos hcondition] at h
    exact ⟨hcondition, h⟩
  · rw [if_neg hcondition] at h
    cases h

theorem demand_of {condition : Prop} [Decidable condition] {status : Nat}
    (h : condition) : demand condition code message status = .ok () :=
  if_pos h

theorem demandSome_bind {α β : Type} {value : Option α} {status : Nat}
    {f : α → Except AuthError β} {v : β}
    (h : demandSome value code message status >>= f = .ok v) : ∃ a, value = some a ∧ f a = .ok v := by
  cases value with
  | none => cases h
  | some a => exact ⟨a, rfl, h⟩

theorem filter_some {α : Type} {value : Option α} {p : α → Bool} {a : α}
    (h : value.filter p = some a) : value = some a ∧ p a = true :=
  Option.filter_eq_some_iff.mp h

variable {digest : String → String} {policy : Policy} {s t : State} {now : Int} {raw : String}

/-- The session is one of the actor, whose account is active. -/
structure Signed (digest : String → String) (s : State) (raw : String) (actor : Actor) : Prop where
  session : ∃ session, OrderedMap.get? s.sessions (digest raw) = some session ∧
    session.accountId = actor.id
  account : s.account? actor.id = some actor.account
  active : actor.account.status = .ACTIVE

variable {actor : Actor}

theorem sessionIn_ok {recent admin : Bool}
    (h : sessionIn digest s raw now recent admin = .ok actor) :
    Signed digest s raw actor ∧ (admin = true → actor.account.admin = true) := by
  unfold sessionIn at h
  obtain ⟨-, h⟩ := demand_bind h
  obtain ⟨session, hsession, h⟩ := demandSome_bind h
  obtain ⟨-, h⟩ := demand_bind h
  obtain ⟨account, haccount, h⟩ := demandSome_bind h
  obtain ⟨-, h⟩ := demand_bind h
  obtain ⟨-, h⟩ := demand_bind h
  obtain ⟨-, h⟩ := demand_bind h
  obtain ⟨-, h⟩ := demand_bind h
  obtain ⟨hadmin, h⟩ := demand_bind h
  cases h
  obtain ⟨hfound, hactive⟩ := filter_some haccount
  exact ⟨⟨⟨session, hsession, rfl⟩, hfound, by simpa using hactive⟩, fun ha => (hadmin ha).1⟩

/-- The actor has the access in the workspace. -/
structure Entered (s : State) (actor : Actor) (workspaceId operation : String) (access : Access) :
    Prop where
  space : s.space? workspaceId = some access.space
  owner : access.owner = decide ("OWNER" ∈ rolesIn s actor.id workspaceId)
  admin : access.admin = actor.account.admin
  allowed : allowedTo (rolesIn s actor.id workspaceId) actor.account.admin operation = true

theorem spaceAccess_ok {operation : String} {access : Access}
    (h : spaceAccess s actor workspaceId operation = .ok access) :
    Entered s actor workspaceId operation access := by
  unfold spaceAccess at h
  obtain ⟨space, hspace, h⟩ := demandSome_bind h
  obtain ⟨-, h⟩ := demand_bind h
  by_cases hallowed : allowedTo (rolesIn s actor.id workspaceId) actor.account.admin operation = false
  · rw [if_pos hallowed] at h
    cases h
  · rw [if_neg hallowed] at h
    obtain ⟨-, h⟩ := demand_bind h
    cases h
    exact ⟨(filter_some hspace).1, rfl, rfl, by simpa using hallowed⟩

/-! ## Role sets -/

variable {roles : List String}

theorem clash_eq_true : clash policy roles = true ↔
    (∃ b ∈ roles, b ∈ policy.businessRoles) ∧ ∃ c ∈ roles, c ∈ policy.complianceRoles := by
  simp [clash]

/-- Fewer roles clash less. -/
theorem clash_mono {xs ys : List String} (hsub : ∀ r ∈ xs, r ∈ ys) (h : clash policy ys = false) :
    clash policy xs = false := by
  rw [Bool.eq_false_iff] at h ⊢
  intro hclash
  obtain ⟨⟨b, hb, hbusiness⟩, c, hc, hcompliance⟩ := clash_eq_true.mp hclash
  exact h (clash_eq_true.mpr ⟨⟨b, hsub b hb, hbusiness⟩, c, hsub c hc, hcompliance⟩)

theorem roleSet_ok {set : List String} (h : roleSet policy roles = .ok set) :
    (∀ r ∈ roles, r ∈ permitted policy) ∧ clash policy roles = false ∧ set = roles.eraseDups := by
  unfold roleSet at h
  obtain ⟨hpermitted, h⟩ := demand_bind h
  obtain ⟨hclash, h⟩ := demand_bind h
  cases h
  exact ⟨hpermitted, clash_mono (fun r hr => List.mem_eraseDups.mpr hr) hclash, rfl⟩

theorem roleSet_of (hpermitted : ∀ r ∈ roles, r ∈ permitted policy)
    (hclash : clash policy roles = false) : roleSet policy roles = .ok roles.eraseDups := by
  have hset : clash policy roles.eraseDups = false :=
    clash_mono (fun r hr => List.mem_eraseDups.mp hr) hclash
  unfold roleSet
  rw [demand_of hpermitted]
  simp only [demand_of hset]
  rfl

/-! ## Frames -/

/-- The accounts, the grants and the spaces are the same. -/
structure SameRoles (s t : State) : Prop where
  accounts : t.accounts = s.accounts
  grants : t.grants = s.grants
  spaces : t.spaces = s.spaces

theorem principal_sameRoles (digest : String → String) (s : State) (accountId tenantId : String) :
    SameRoles s (principal digest s accountId tenantId) := by
  unfold principal
  by_cases hbound : (s.bindings.any fun b => b.2.accountId = accountId ∧ b.2.tenantId = tenantId) = true
  · rw [if_pos hbound]
    exact ⟨rfl, rfl, rfl⟩
  · rw [if_neg hbound]
    exact ⟨rfl, rfl, rfl⟩

/-! ## One operation -/

theorem caller_eq {act : Act} (h : Signed digest s raw actor)
    (hraw : act.raw = some raw) : caller digest s act = some actor.id := by
  obtain ⟨session, hsession, haccount⟩ := h.session
  unfold caller
  rw [hraw, Option.bind_some, hsession, Option.map_some, haccount]

theorem apply_ok {input : ApplyInput}
    (h : SpaceService.apply digest policy now raw input id s = .ok t) : SameRoles s t := by
  unfold SpaceService.apply at h
  obtain ⟨actor, -, h⟩ := bind_ok h
  obtain ⟨operationId, -, h⟩ := bind_ok h
  by_cases hprior : (s.applications.any fun e =>
      e.2.accountId = actor.id ∧ some e.2.operationId = input.operationId) = true
  · rw [if_pos hprior] at h
    cases h
    exact ⟨rfl, rfl, rfl⟩
  · rw [if_neg hprior] at h
    obtain ⟨kind, -, h⟩ := demandSome_bind h
    obtain ⟨-, -, h⟩ := bind_ok h
    by_cases hduplicate : (s.applications.any fun e => isDuplicate actor.id kind input e.2) = true
    · rw [if_pos hduplicate] at h
      cases h
      exact ⟨rfl, rfl, rfl⟩
    · rw [if_neg hduplicate] at h
      obtain ⟨name, -, h⟩ := bind_ok h
      obtain ⟨reason, -, h⟩ := bind_ok h
      obtain ⟨requestedRoles, -, h⟩ := bind_ok h
      cases h
      exact ⟨rfl, rfl, rfl⟩

theorem addRoles_grants (h : t.grants = s.grants) (workspaceId accountId : String) (source : Source)
    (granted : List String) (by_ : String) :
    (addRoles t workspaceId accountId source granted by_).grants =
      (addRoles s workspaceId accountId source granted by_).grants := by
  unfold addRoles
  simp only [h]

theorem approveCreate_ok {a : Application} {given : Approval}
    (h : approveCreate digest a workspaceId s = .ok given) :
    given.workspaceId = workspaceId ∧ given.granted = ["OWNER"] ∧ given.source = .APPLICATION ∧
      given.state.accounts = s.accounts ∧ given.state.grants = s.grants ∧
      ∃ space, given.state.spaces = OrderedMap.set s.spaces workspaceId space ∧
        space.ownerId = a.accountId := by
  unfold approveCreate at h
  obtain ⟨-, h⟩ := demand_bind h
  cases h
  have hsame := principal_sameRoles digest
    { s with projects := s.projects ++ [(workspaceId,
      { tenantId := "TRAQEN-INSTANCE", name := a.name.getD "", status := "ACTIVE" })] }
    a.accountId "TRAQEN-INSTANCE"
  refine ⟨rfl, rfl, rfl, hsame.accounts, hsame.grants, ?_⟩
  dsimp only
  rw [hsame.spaces]
  exact ⟨_, rfl, rfl⟩

/-- What an approved `JOIN` application demanded. -/
structure Joined (policy : Policy) (s : State) (actor : Actor) (a : Application)
    (roles : List String) (source : Source) (granted : List String) : Prop where
  access : ∃ access, Entered s actor a.target "MANAGE" access ∧
    (access.owner = false → access.admin = false → actor.id ≠ a.accountId ∧
      "PERMISSION_ADMIN" ∉ granted ∧ (rolesIn s a.accountId a.target).any isManagerRole = false)
  source : source = .APPLICATION ∨
    source = .ADMIN ∧ actor.id = a.accountId ∧ actor.account.admin = true
  granted : roleSet policy roles = .ok granted

theorem approveJoin_ok {a : Application} {roles : Option (List String)}
    {given : Approval} (h : approveJoin digest policy actor a roles s = .ok given) :
    Joined policy s actor a (roles.getD a.requestedRoles) given.source given.granted ∧
      given.workspaceId = a.target ∧ SameRoles s given.state := by
  unfold approveJoin at h
  obtain ⟨access, haccess, h⟩ := bind_ok h
  have hentered := spaceAccess_ok haccess
  obtain ⟨-, h⟩ := demand_bind h
  obtain ⟨hself, h⟩ := demand_bind h
  obtain ⟨granted, hgranted, h⟩ := bind_ok h
  obtain ⟨-, h⟩ := demand_bind h
  obtain ⟨hmanager, h⟩ := demand_bind h
  obtain ⟨set, -, h⟩ := bind_ok h
  cases h
  refine ⟨⟨⟨access, hentered, ?_⟩, ?_, hgranted⟩, rfl, principal_sameRoles _ _ _ _⟩
  · intro howner hadmin
    exact ⟨fun heq => hself ⟨heq, howner, hadmin⟩, hmanager ⟨howner, hadmin⟩⟩
  · by_cases hadmin : actor.id = a.accountId ∧ access.admin = true ∧ access.owner = false
    · rw [if_pos hadmin]
      exact Or.inr ⟨rfl, hadmin.1, hentered.admin ▸ hadmin.2.1⟩
    · rw [if_neg hadmin]
      exact Or.inl rfl

/-- What an accepted operation can do to the roles. -/
inductive Changed (digest : String → String) (policy : Policy) (s : State) : Act → State → Prop
  | same {act : Act} {t : State} (accounts : t.accounts = s.accounts) (grants : t.grants = s.grants)
      (owners : ∀ w, (t.space? w).map (·.ownerId) = (s.space? w).map (·.ownerId)) :
      Changed digest policy s act t
  | accounts {act : Act} {t : State} (grants : t.grants = s.grants) (spaces : t.spaces = s.spaces)
      (admin : ∀ x, caller digest s act = some x →
        ∃ account, s.account? x = some account ∧ account.admin = true) :
      Changed digest policy s act t
  | created {now : Int} {raw id workspaceId : String} {input : Decision} {t : State} {actor : Actor}
      {a : Application} {space : Space} (signed : Signed digest s raw actor)
      (admin : actor.account.admin = true) (new : s.space? workspaceId = none)
      (accounts : t.accounts = s.accounts) (owner : space.ownerId = a.accountId)
      (grants : t.grants =
        (addRoles s workspaceId a.accountId .APPLICATION ["OWNER"] actor.id).grants)
      (spaces : t.spaces = OrderedMap.set s.spaces workspaceId space) :
      Changed digest policy s (.decide now raw id input workspaceId) t
  | joined {now : Int} {raw id workspaceId : String} {input : Decision} {t : State} {actor : Actor}
      {a : Application} {source : Source} {granted : List String}
      (signed : Signed digest s raw actor) (found : OrderedMap.get? s.applications id = some a)
      (kind : a.kind = .JOIN) (pending : a.status = .PENDING) (approve : input.approve = some true)
      (active : s.isActive a.accountId = true)
      (joined : Joined policy s actor a (input.roles.getD a.requestedRoles) source granted)
      (accounts : t.accounts = s.accounts)
      (grants : t.grants = (addRoles s a.target a.accountId source granted actor.id).grants)
      (spaces : t.spaces = s.spaces) :
      Changed digest policy s (.decide now raw id input workspaceId) t
  | granted {act : Act} {now : Int} {raw workspaceId accountId : String} {roles : List String}
      {asked : Source} {t : State} {actor : Actor} {access : Access} {granted : List String}
      (call : act = .grant now raw workspaceId accountId roles asked ∨
        act = .intervene now raw workspaceId roles ∧ asked = .ADMIN ∧ accountId = actor.id)
      (signed : sessionIn digest s raw now false false = .ok actor)
      (entered : spaceAccess s actor workspaceId "MANAGE" = .ok access)
      (source : asked = .DIRECT ∨ asked = .ADMIN ∧ actor.account.admin = true ∧
        actor.id = accountId)
      (active : s.isActive accountId = true) (set : roleSet policy roles = .ok granted)
      (managers : access.owner = false → access.admin = false → accountId ≠ actor.id ∧
        "PERMISSION_ADMIN" ∉ granted ∧ "PERMISSION_ADMIN" ∉ rolesIn s accountId workspaceId ∧
        "OWNER" ∉ rolesIn s accountId workspaceId)
      (accounts : t.accounts = s.accounts)
      (grants : t.grants = (setRoles (withdrawRoles s workspaceId accountId
        (grantSource actor access accountId asked)) workspaceId accountId
        (grantSource actor access accountId asked) granted actor.id).grants)
      (spaces : t.spaces = s.spaces) :
      Changed digest policy s act t
  | owned {act : Act} {now : Int} {raw workspaceId targetId : String} {t : State} {actor : Actor}
      {space space' : Space} {version : Nat}
      (call : act = .designateOwner now raw workspaceId targetId ∧ actor.account.admin = true ∨
        (∃ other, act = .transfer now raw workspaceId other true) ∧ targetId = actor.id ∧
          space.pendingOwner = some actor.id)
      (signed : Signed digest s raw actor)
      (found : s.space? workspaceId = some space) (owner : space'.ownerId = targetId)
      (accounts : t.accounts = s.accounts)
      (grants : t.grants = (setOwner (dropOwner s workspaceId) workspaceId targetId .DIRECT actor.id
        version).grants)
      (spaces : t.spaces = OrderedMap.set s.spaces workspaceId space') :
      Changed digest policy s act t
  | migrated {input : MigrateInput} {t : State} (done : migrate digest policy input s = .ok t) :
      Changed digest policy s (.migrate input) t

theorem checkDecider_ok {a : Application}
    (h : checkDecider digest now raw actor a s = .ok ()) (hkind : a.kind = .CREATE) :
    ∃ admin : Actor, Signed digest s raw admin ∧ admin.account.admin = true := by
  unfold checkDecider at h
  rw [hkind] at h
  obtain ⟨admin, hadmin, -⟩ := bind_ok h
  obtain ⟨hsigned, hflag⟩ := sessionIn_ok hadmin
  exact ⟨admin, hsigned, hflag rfl⟩

/-- A token is of one account. -/
theorem Signed.eq {other : Actor} (h : Signed digest s raw actor)
    (h' : Signed digest s raw other) : other = actor := by
  obtain ⟨session, hsession, hid⟩ := h.session
  obtain ⟨session', hsession', hid'⟩ := h'.session
  rw [hsession] at hsession'
  cases hsession'
  have hids : other.id = actor.id := hid'.symm.trans hid
  have haccount : some other.account = some actor.account := by
    rw [← h.account, ← h'.account, hids]
  cases actor
  cases other
  cases hids
  cases haccount
  rfl

theorem decide_changed {input : Decision} (hnew : s.space? workspaceId = none)
    (h : SpaceService.decide digest policy now raw id input workspaceId s = .ok t) :
    Changed digest policy s (.decide now raw id input workspaceId) t := by
  unfold SpaceService.decide at h
  obtain ⟨actor, hactor, h⟩ := bind_ok h
  have hsigned := (sessionIn_ok hactor).1
  obtain ⟨a, ha, h⟩ := demandSome_bind h
  obtain ⟨_, hdecider, h⟩ := bind_ok h
  by_cases hpending : a.status = .PENDING
  swap
  · rw [if_pos hpending] at h
    cases h
    exact .same rfl rfl fun _ => rfl
  rw [if_neg (not_not.mpr hpending)] at h
  obtain ⟨-, h⟩ := demand_bind h
  obtain ⟨hactive, h⟩ := demand_bind h
  obtain ⟨approve, happrove, h⟩ := demandSome_bind h
  cases approve with
  | false =>
    obtain ⟨-, -, h⟩ := bind_ok h
    cases h
    exact .same rfl rfl fun _ => rfl
  | true =>
    obtain ⟨given, hgiven, h⟩ := bind_ok h
    unfold approval at hgiven
    cases hkind : a.kind with
    | CREATE =>
      rw [hkind] at hgiven
      obtain ⟨admin, hadmin, hflag⟩ := checkDecider_ok hdecider hkind
      obtain ⟨hw, hroles, hsource, haccounts, hgrants, space, hspaces, howner⟩ :=
        approveCreate_ok hgiven
      have h := Except.ok.inj h
      subst h
      rw [hsigned.eq hadmin] at hflag
      refine .created (a := a) hsigned hflag hnew haccounts howner ?_ hspaces
      rw [hw, hroles, hsource]
      exact addRoles_grants hgrants _ _ _ _ _
    | JOIN =>
      rw [hkind] at hgiven
      obtain ⟨hjoined, hw, hsame⟩ := approveJoin_ok hgiven
      cases h
      refine .joined hsigned ha hkind hpending happrove hactive hjoined hsame.accounts ?_ hsame.spaces
      rw [hw]
      exact addRoles_grants hsame.grants _ _ _ _ _

theorem setRoles_grants (h : t.grants = s.grants) (workspaceId accountId : String) (source : Source)
    (granted : List String) (by_ : String) :
    (setRoles t workspaceId accountId source granted by_).grants =
      (setRoles s workspaceId accountId source granted by_).grants := by
  unfold setRoles
  simp only [h]

theorem grant_changed {act : Act} {accountId : String} {asked : Source} {caller : Actor}
    (hcall : act = .grant now raw workspaceId accountId roles asked ∨
      act = .intervene now raw workspaceId roles ∧ asked = .ADMIN ∧ accountId = caller.id)
    (hcaller : accountId = caller.id → Signed digest s raw caller)
    (h : SpaceService.grant digest policy now raw workspaceId accountId roles asked s = .ok t) :
    Changed digest policy s act t := by
  unfold SpaceService.grant at h
  obtain ⟨actor, hactor, h⟩ := bind_ok h
  have hsigned := (sessionIn_ok hactor).1
  obtain ⟨access, haccess, h⟩ := bind_ok h
  obtain ⟨hsource, h⟩ := demand_bind h
  obtain ⟨hactive, h⟩ := demand_bind h
  obtain ⟨granted, hgranted, h⟩ := bind_ok h
  obtain ⟨hmanagers, h⟩ := demand_bind h
  obtain ⟨-, -, h⟩ := bind_ok h
  cases h
  have hsame := principal_sameRoles digest (withdrawRoles s workspaceId accountId
    (grantSource actor access accountId asked)) accountId access.space.tenantId
  refine .granted (hcall.imp_right ?_) hactor haccess hsource hactive hgranted ?_ hsame.accounts
    (setRoles_grants hsame.grants _ _ _ _ _) hsame.spaces
  · rintro ⟨hact, hasked, hid⟩
    exact ⟨hact, hasked, hid.trans (congrArg Actor.id (hsigned.eq (hcaller hid)))⟩
  · exact fun howner hadmin => hmanagers ⟨howner, hadmin⟩

theorem setOwner_grants (h : t.grants = s.grants) (workspaceId accountId : String)
    (source : Source) (by_ : String) (version : Nat) :
    (setOwner t workspaceId accountId source by_ version).grants =
      (setOwner s workspaceId accountId source by_ version).grants := by
  unfold setOwner
  simp only [h]

theorem dropOwner_grants (h : t.grants = s.grants) (workspaceId : String) :
    (dropOwner t workspaceId).grants = (dropOwner s workspaceId).grants := by
  unfold dropOwner
  simp only [h]

theorem setSpace_owner {space space' : Space}
    (hfound : s.space? workspaceId = some space) (howner : space'.ownerId = space.ownerId)
    (w : String) : ((setSpace s workspaceId space').space? w).map (·.ownerId) =
      (s.space? w).map (·.ownerId) := by
  unfold State.space? setSpace at *
  rw [OrderedMap.get?_of_set]
  by_cases hw : w = workspaceId
  · rw [if_pos hw, hw, hfound, Option.map_some, Option.map_some, howner]
  · rw [if_neg hw]

theorem transfer_changed {targetId : String} {confirm : Bool}
    (h : SpaceService.transfer digest now raw workspaceId targetId confirm s = .ok t) :
    Changed digest policy s (.transfer now raw workspaceId targetId confirm) t := by
  unfold SpaceService.transfer at h
  obtain ⟨actor, hactor, h⟩ := bind_ok h
  have hsigned := (sessionIn_ok hactor).1
  obtain ⟨space, hspace, h⟩ := demandSome_bind h
  obtain ⟨hfound, -⟩ := filter_some hspace
  cases confirm with
  | true =>
    obtain ⟨⟨hpending, -⟩, h⟩ := demand_bind h
    cases h
    have hsame := principal_sameRoles digest (dropOwner s workspaceId) actor.id space.tenantId
    refine .owned (Or.inr ⟨⟨targetId, rfl⟩, rfl, hpending⟩) hsigned hfound ?_ hsame.accounts
      (setOwner_grants hsame.grants _ _ _ _ _)
      (congrArg (OrderedMap.set · workspaceId _) hsame.spaces)
    rfl
  | false =>
    obtain ⟨access, -, h⟩ := bind_ok h
    obtain ⟨-, h⟩ := demand_bind h
    cases h
    exact .same rfl rfl fun w => setSpace_owner hfound (by rfl) w

theorem designateOwner_changed {targetId : String}
    (h : SpaceService.designateOwner digest now raw workspaceId targetId s = .ok t) :
    Changed digest policy s (.designateOwner now raw workspaceId targetId) t := by
  unfold SpaceService.designateOwner at h
  obtain ⟨actor, hactor, h⟩ := bind_ok h
  obtain ⟨hsigned, hadmin⟩ := sessionIn_ok hactor
  obtain ⟨space, hspace, h⟩ := demandSome_bind h
  cases h
  have hsame := principal_sameRoles digest s targetId space.tenantId
  have hgrants := dropOwner_grants hsame.grants workspaceId
  refine .owned (Or.inl ⟨rfl, hadmin rfl⟩) hsigned (filter_some hspace).1 ?_ hsame.accounts
    (setOwner_grants hgrants _ _ _ _ _) (congrArg (OrderedMap.set · workspaceId _) hsame.spaces)
  rfl

theorem updateAccount_changed {patch : List (String × Json)}
    (h : updateAccount digest now raw id patch s = .ok t) :
    Changed digest policy s (.updateAccount now raw id patch) t := by
  unfold updateAccount at h
  obtain ⟨actor, hactor, h⟩ := bind_ok h
  obtain ⟨hsigned, hadmin⟩ := sessionIn_ok hactor
  obtain ⟨target, -, h⟩ := demandSome_bind h
  obtain ⟨-, h⟩ := demand_bind h
  obtain ⟨-, h⟩ := demand_bind h
  obtain ⟨-, h⟩ := demand_bind h
  obtain ⟨-, -, h⟩ := bind_ok h
  obtain ⟨displayName, -, h⟩ := bind_ok h
  have hkept : t.grants = s.grants ∧ t.spaces = s.spaces := by
    by_cases hrevoked : patch.lookup "status" = some (.str "DISABLED") ∨ patch.lookup "admin" ≠ none
    · rw [if_pos hrevoked] at h
      cases h
      exact ⟨rfl, rfl⟩
    · rw [if_neg hrevoked] at h
      cases h
      exact ⟨rfl, rfl⟩
  refine .accounts hkept.1 hkept.2 fun x hx => ?_
  rw [caller_eq hsigned rfl] at hx
  cases hx
  exact ⟨_, hsigned.account, hadmin rfl⟩

theorem changeSpace_changed (visibility : String) (status : SpaceStatus)
    (entryDigest : Option String) :
    Changed digest policy s (.elsewhere (.space id visibility status entryDigest))
      (changeSpace s id visibility status entryDigest) := by
  unfold changeSpace
  cases hfound : s.space? id with
  | none => exact .same rfl rfl fun _ => rfl
  | some space => exact .same rfl rfl fun w => setSpace_owner hfound (by rfl) w

theorem elsewhere_changed (change : Elsewhere) :
    Changed digest policy s (.elsewhere change) (change.apply s) := by
  cases change with
  | account id a =>
    refine .accounts rfl rfl fun x hx => ?_
    cases hx
  | space id visibility status entryDigest =>
    exact changeSpace_changed visibility status entryDigest
  | control c => exact .same rfl rfl fun _ => rfl
  | session id v => exact .same rfl rfl fun _ => rfl
  | project id p => exact .same rfl rfl fun _ => rfl
  | principal id tenantId => exact .same rfl rfl fun _ => rfl

theorem step_changed {act : Act} (h : step digest policy s act = some t) :
    Changed digest policy s act t := by
  cases act with
  | elsewhere change =>
    cases h
    exact elsewhere_changed change
  | apply now raw input id =>
    obtain ⟨-, h⟩ := Option.ite_none_right_eq_some.mp h
    obtain ⟨haccounts, hgrants, hspaces⟩ := apply_ok (toOption_some h)
    refine .same haccounts hgrants fun w => ?_
    unfold State.space?
    rw [hspaces]
  | decide now raw id input workspaceId =>
    obtain ⟨hnew, h⟩ := Option.ite_none_right_eq_some.mp h
    have hnew : s.space? workspaceId = none := by
      unfold isNewWorkspace at hnew
      exact Option.isNone_iff_eq_none.mp (Bool.and_eq_true_iff.mp hnew).1
    exact decide_changed hnew (toOption_some h)
  | grant now raw workspaceId accountId roles source =>
    have h := toOption_some h
    obtain ⟨actor, hactor, -⟩ := bind_ok h
    exact grant_changed (Or.inl rfl) (fun _ : accountId = actor.id => (sessionIn_ok hactor).1) h
  | intervene now raw workspaceId roles =>
    obtain ⟨actor, hactor, h⟩ := bind_ok (toOption_some h)
    exact grant_changed (Or.inr ⟨rfl, rfl, rfl⟩) (fun _ => (sessionIn_ok hactor).1) h
  | transfer now raw workspaceId targetId confirm => exact transfer_changed (toOption_some h)
  | designateOwner now raw workspaceId targetId => exact designateOwner_changed (toOption_some h)
  | updateAccount now raw id patch => exact updateAccount_changed (toOption_some h)
  | migrate input => exact .migrated (toOption_some h)

/-! ## The rows of a migration -/

theorem eachRow_keeps {α : Type} {f : α → State → Except AuthError State} {Inv : State → Prop}
    (hrow : ∀ row s t, f row s = .ok t → Inv s → Inv t) {rows : List α}
    (h : eachRow f rows s = .ok t) (hs : Inv s) : Inv t := by
  induction rows generalizing s with
  | nil =>
    cases h
    exact hs
  | cons row rows ih =>
    obtain ⟨u, hu, h⟩ := bind_ok h
    exact ih h (hrow row s u hu hs)

theorem migrateBinding_ok {row : BindingRow} (h : migrateBinding row s = .ok t) :
    SameRoles s t := by
  obtain ⟨tenantId, -, h⟩ := demandSome_bind h
  obtain ⟨-, h⟩ := demand_bind h
  cases h
  exact ⟨rfl, rfl, rfl⟩

/-- What a row of an owner leaves: a new space of the account. -/
structure OwnerGiven (s : State) (row : OwnerRow) (by_ : String) (t : State) : Prop where
  new : s.space? row.workspaceId = none
  accounts : t.accounts = s.accounts
  grants : t.grants = (setOwner s row.workspaceId row.accountId .MIGRATION by_ 1).grants
  spaces : ∃ space, space.ownerId = row.accountId ∧
    t.spaces = OrderedMap.set s.spaces row.workspaceId space

theorem migrateOwner_ok {by_ : String} {row : OwnerRow}
    (h : migrateOwner digest by_ row s = .ok t) : OwnerGiven s row by_ t := by
  obtain ⟨p, -, h⟩ := demandSome_bind h
  obtain ⟨hnew, h⟩ := demand_bind h
  cases h
  refine ⟨hnew, (principal_sameRoles digest _ _ _).accounts,
    setOwner_grants (principal_sameRoles digest _ _ _).grants _ _ _ _ _, ?_⟩
  have hspaces := (principal_sameRoles digest (setSpace s row.workspaceId
    { tenantId := p.tenantId, name := p.name, ownerId := row.accountId
      visibility := row.visibility.getD "DISCOVERABLE"
      status := if p.status = "ACTIVE" then .ACTIVE else .DELETED
      pendingOwner := none, entryDigest := none }) row.accountId p.tenantId).spaces
  exact ⟨_, rfl, hspaces⟩

/-- What a row of a grant leaves. -/
structure RolesGiven (policy : Policy) (s : State) (row : GrantRow) (by_ : String) (t : State) :
    Prop where
  there : s.space? row.workspaceId ≠ none
  set : ∃ set, roleSet policy row.roles = .ok set
  accounts : t.accounts = s.accounts
  grants : t.grants = (setMigrated s row by_).grants
  spaces : t.spaces = s.spaces

theorem migrateGrant_ok {by_ : String} {row : GrantRow}
    (h : migrateGrant digest policy by_ row s = .ok t) : RolesGiven policy s row by_ t := by
  obtain ⟨space, hspace, h⟩ := demandSome_bind h
  obtain ⟨set, hset, h⟩ := bind_ok h
  obtain ⟨-, -, h⟩ := bind_ok h
  cases h
  have hsame := principal_sameRoles digest s row.accountId space.tenantId
  refine ⟨?_, ⟨set, hset⟩, hsame.accounts, ?_, hsame.spaces⟩
  · rw [(filter_some hspace).1]
    exact Option.some_ne_none space
  · unfold setMigrated
    dsimp only
    rw [hsame.grants]

theorem migrate_rows {input : MigrateInput} (h : migrate digest policy input s = .ok t) :
    ∃ bound owned granted, eachRow migrateBinding input.bindings s = .ok bound ∧
      eachRow (migrateOwner digest input.requestedBy) input.owners bound = .ok owned ∧
      eachRow (migrateGrant digest policy input.requestedBy) input.grants owned = .ok granted ∧
      SameRoles granted t := by
  obtain ⟨-, h⟩ := demand_bind h
  obtain ⟨-, h⟩ := demand_bind h
  obtain ⟨bound, hbound, h⟩ := bind_ok h
  obtain ⟨owned, howned, h⟩ := bind_ok h
  obtain ⟨granted, hgranted, h⟩ := bind_ok h
  cases h
  exact ⟨bound, owned, granted, hbound, howned, hgranted, rfl, rfl, rfl⟩

/-- A property that only reads the accounts, the grants and the spaces goes through a migration
when each row of an owner and of a grant keeps it. -/
theorem migrate_keeps {Inv : State → Prop} {input : MigrateInput}
    (hsame : ∀ s t, SameRoles s t → Inv s → Inv t)
    (howner : ∀ row s t, OwnerGiven s row input.requestedBy t → Inv s → Inv t)
    (hgrant : ∀ row s t, RolesGiven policy s row input.requestedBy t → Inv s → Inv t)
    (h : migrate digest policy input s = .ok t) (hs : Inv s) : Inv t := by
  obtain ⟨bound, owned, granted, hbound, howned, hgranted, hend⟩ := migrate_rows h
  have h1 := eachRow_keeps (fun row s t h => hsame s t (migrateBinding_ok h)) hbound hs
  have h2 := eachRow_keeps (fun row s t h => howner row s t (migrateOwner_ok h)) howned h1
  have h3 := eachRow_keeps (fun row s t h => hgrant row s t (migrateGrant_ok h)) hgranted h2
  exact hsame granted t hend h3

end Traqen.SpaceRoles
