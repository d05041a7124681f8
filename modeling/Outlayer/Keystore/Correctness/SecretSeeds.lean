import Outlayer.Keystore.Seeds
import Outlayer.Contract.Messages
import Outlayer.Contract.Replay

/-!
# `Keystore.Correctness.SecretSeeds` — whose key a seed is, and who agrees on it

A seed is three texts in a row: what comes before the owner, the owner, and what comes after. It is joined with colons
and nothing is escaped, so the owner can be told from the rest only while a repository and a branch leave no second
reading. `ReadsPast` is that second reading; two owners share a key exactly when it exists.

A row is read with the branch it is stored under, and rewritten with the branch of the request. The contract answers a
request for a branch it has no row for with the row of no branch, and there the two disagree.
-/

namespace Outlayer
open Text Collections Fields

namespace Keystore

/-! ## The row that is found -/

section Found
variable {H : Host} {s : SecretStore} {q : RowRequest} {row : SecretProfileView} {vault : Option AccountId}

/-- A request is answered under an account: the owner it names. -/
theorem owner_of_lookup {answer : SecretWithVault} (h : q.lookup H s = some answer) :
    ∃ owner : AccountId, AccountId.parse q.owner = some owner
      ∧ answer = getSecretWithVault H s (accessorToContract q.accessor) q.profile owner := by
  unfold RowRequest.lookup at h
  cases hparse : AccountId.parse q.owner with
  | none => rw [hparse] at h; cases h
  | some owner =>
      rw [hparse, readAccessor_accessorToContractJson] at h
      exact ⟨owner, rfl, (Option.some.inj h).symm⟩

theorem colon_not_mem_owner {answer : SecretWithVault} (h : q.lookup H s = some answer) : ':' ∉ q.owner.toList := by
  obtain ⟨owner, howner, -⟩ := owner_of_lookup h
  rw [parse_some howner]
  exact colon_not_mem_accountName owner

end Found

/-- A seed that begins at no declared-key root. -/
def Unreserved (seed : String) : Prop := ∀ reserved ∈ declaredKeyRoots, startsWith seed reserved = false

/-! ## The three parts of a seed -/

/-- The text before the owner. -/
def RowRequest.seedHead (q : RowRequest) : String :=
  match q.accessor with
  | .repo repo _       => normalizeRepoUrl repo
  | .wasmHash hash     => "wasm_hash:" ++ hash
  | .project projectId => "project:" ++ projectId
  | .system secretType => "system:" ++ secretType.asSeedStr

/-- The text after the owner. -/
def RowRequest.seedTail (q : RowRequest) (row : SecretProfileView) : String :=
  match q.accessor with
  | .repo _ _ =>
      match secretBranch row with
      | some branch => ":" ++ branch
      | none        => ""
  | .system _ => ":" ++ q.profile
  | _         => ""

/-- The seed of `q` is read past its owner: what comes before the owner of `q'` goes on where the owner of `q` ends,
    and what comes after the owner of `q` spells the rest. -/
def RowRequest.ReadsPast (q : RowRequest) (row : SecretProfileView) (q' : RowRequest) (row' : SecretProfileView) :
    Prop :=
  ∃ u, q'.seedHead = q.seedHead ++ ":" ++ q.owner ++ u ∧ q.seedTail row = u ++ ":" ++ q'.owner ++ q'.seedTail row'

section Parts
variable {q q' : RowRequest} {row row' : SecretProfileView} {seed : String}

theorem repoSeedRoot_ok {repo root : String} (h : repoSeedRoot repo = .ok root) :
    normalizeRepoUrl repo = root ∧ Unreserved (root ++ ":") := by
  unfold repoSeedRoot at h
  dsimp only at h
  split at h
  · cases h
  · next hnone =>
      obtain rfl := Except.ok.inj h
      refine ⟨rfl, ?_⟩
      intro reserved hreserved
      simpa using List.find?_eq_none.mp hnone reserved hreserved

theorem decryptSeed_eq (h : q.decryptSeed row = .ok seed) :
    seed = q.seedHead ++ ":" ++ q.owner ++ q.seedTail row := by
  unfold RowRequest.decryptSeed at h
  unfold RowRequest.seedHead RowRequest.seedTail
  cases haccessor : q.accessor with
  | repo repo branch =>
      rw [haccessor] at h
      obtain ⟨root, hroot, hseed⟩ := bind_ok h
      obtain ⟨rfl, -⟩ := repoSeedRoot_ok hroot
      obtain rfl := Except.ok.inj hseed
      unfold repoSeed
      cases secretBranch row with
      | none => simp
      | some branch => simp [String.append_assoc]
  | wasmHash hash =>
      rw [haccessor] at h
      obtain rfl := Except.ok.inj h
      simp
  | project projectId =>
      rw [haccessor] at h
      obtain rfl := Except.ok.inj h
      simp
  | system secretType =>
      rw [haccessor] at h
      obtain rfl := Except.ok.inj h
      simp [String.append_assoc]

theorem seedTail_shape (q : RowRequest) (row : SecretProfileView) : Tail ':' (q.seedTail row).toList := by
  unfold RowRequest.seedTail
  split
  · split
    · next branch _ => exact Or.inr ⟨branch.toList, by rw [String.toList_append]; rfl⟩
    · exact Or.inl rfl
  · exact Or.inr ⟨q.profile.toList, by rw [String.toList_append]; rfl⟩
  · exact Or.inl rfl

theorem readsPast_iff : q.ReadsPast row q' row' ↔
    Overruns ':' q.seedHead.toList q.owner.toList (q.seedTail row).toList q'.seedHead.toList q'.owner.toList
      (q'.seedTail row').toList := by
  constructor
  · rintro ⟨u, hhead, htail⟩
    refine ⟨u.toList, ?_, ?_⟩
    · rw [hhead]
      simp [String.toList_append]
    · rw [htail]
      simp [String.toList_append]
  · rintro ⟨u, hhead, htail⟩
    refine ⟨String.ofList u, ?_, ?_⟩
    · apply String.toList_inj.mp
      simp [String.toList_append, hhead]
    · apply String.toList_inj.mp
      simp [String.toList_append, htail]

/-! ## Reserved roots -/

/-- A seed that begins with a text that is no beginning of a reserved root is under none. -/
theorem not_reserved {lead rest : String}
    (hlead : ∀ reserved ∈ declaredKeyRoots,
      reserved.toList.take lead.toList.length ≠ lead.toList.take reserved.toList.length) :
    Unreserved (lead ++ rest) := by
  intro reserved hreserved
  apply decide_eq_false
  intro hstart
  rw [String.toList_append] at hstart
  exact hlead reserved hreserved (take_of_prefix_append hstart)

theorem reserved_ends {reserved : String} (h : reserved ∈ declaredKeyRoots) :
    ∃ name, reserved.toList = name ++ [':'] ∧ ':' ∉ name := by
  simp only [declaredKeyRoots, List.mem_cons, List.not_mem_nil, or_false] at h
  rcases h with rfl | rfl | rfl
  · exact ⟨"signing-key".toList, rfl, by decide⟩
  · exact ⟨"encryption-key".toList, rfl, by decide⟩
  · exact ⟨"task-key".toList, rfl, by decide⟩

/-- The one colon of a reserved root ends it, so what a repository's root is not under, its seeds are not under. -/
theorem repo_not_reserved {root rest : String} (hroot : Unreserved (root ++ ":")) :
    Unreserved (root ++ ":" ++ rest) := by
  intro reserved hreserved
  apply decide_eq_false
  intro hstart
  have hnot : ¬ reserved.toList <+: (root ++ ":").toList := of_decide_eq_false (hroot reserved hreserved)
  rw [String.toList_append] at hstart
  rcases List.prefix_or_prefix_of_prefix hstart (List.prefix_append _ _) with hshort | ⟨c, hlong⟩
  · exact hnot hshort
  · obtain ⟨name, hends, hname⟩ := reserved_ends hreserved
    rcases List.eq_nil_or_concat c with rfl | ⟨c', d, rfl⟩
    · exact hnot ⟨[], by rw [List.append_nil, ← hlong, List.append_nil]⟩
    · -- the colon after the root would stand inside the name
      rw [hends, String.toList_append, List.concat_eq_append, ← List.append_assoc] at hlong
      have hin := (List.append_inj' hlong rfl).1
      apply hname
      rw [← hin]
      simp

theorem repoSeed_not_reserved {root owner : String} {branch : Option String}
    (hroot : Unreserved (root ++ ":")) : Unreserved (repoSeed root owner branch) := by
  intro reserved hreserved
  cases branch with
  | none =>
      unfold repoSeed
      exact repo_not_reserved hroot reserved hreserved
  | some branch =>
      have hseed : repoSeed root owner (some branch) = root ++ ":" ++ (owner ++ ":" ++ branch) := by
        simp [repoSeed, String.append_assoc]
      rw [hseed]
      exact repo_not_reserved hroot reserved hreserved

theorem decryptSeed_not_reserved (h : q.decryptSeed row = .ok seed) : Unreserved seed := by
  unfold RowRequest.decryptSeed at h
  cases haccessor : q.accessor with
  | repo repo branch =>
      rw [haccessor] at h
      obtain ⟨root, hroot, hseed⟩ := bind_ok h
      rw [← Except.ok.inj hseed]
      exact repoSeed_not_reserved (repoSeedRoot_ok hroot).2
  | wasmHash hash =>
      rw [haccessor] at h
      rw [← Except.ok.inj h, String.append_assoc, String.append_assoc]
      exact not_reserved (by decide)
  | project projectId =>
      rw [haccessor] at h
      rw [← Except.ok.inj h, String.append_assoc, String.append_assoc]
      exact not_reserved (by decide)
  | system secretType =>
      rw [haccessor] at h
      rw [← Except.ok.inj h]
      simp only [String.append_assoc]
      exact not_reserved (by decide)

theorem requestSeed_not_reserved {accessor : SecretAccessor} {owner profile : String}
    (h : requestSeed accessor owner profile = .ok seed) : Unreserved seed := by
  unfold requestSeed at h
  cases accessor with
  | repo repo branch =>
      obtain ⟨root, hroot, hseed⟩ := bind_ok h
      rw [← Except.ok.inj hseed]
      exact repoSeed_not_reserved (repoSeedRoot_ok hroot).2
  | wasmHash hash =>
      rw [← Except.ok.inj h, String.append_assoc, String.append_assoc]
      exact not_reserved (by decide)
  | project projectId =>
      rw [← Except.ok.inj h, String.append_assoc, String.append_assoc]
      exact not_reserved (by decide)
  | system secretType =>
      rw [← Except.ok.inj h]
      simp only [String.append_assoc]
      exact not_reserved (by decide)

theorem refuse_ok {u : Unit} (h : refuseDeclaredKeySeed seed = .ok u) : Unreserved seed := by
  unfold refuseDeclaredKeySeed at h
  split at h
  · cases h
  · next hnone =>
      intro reserved hreserved
      simpa using List.find?_eq_none.mp hnone reserved hreserved

/-- No endpoint derives from a reserved seed. -/
theorem endpoint_not_reserved {endpoint : SeedEndpoint} {spelled : String} (h : endpoint.seed spelled = .ok seed) :
    Unreserved seed := by
  have hrefused : ∀ {x : ApiResult String}, x = (do refuseDeclaredKeySeed spelled; .ok spelled) → x = .ok seed →
      Unreserved seed := by
    intro x hx hok
    obtain ⟨u, hu, hseed⟩ := bind_ok (hx ▸ hok)
    exact Except.ok.inj hseed ▸ refuse_ok hu
  cases endpoint with
  | pubkey => exact hrefused rfl h
  | encrypt => exact hrefused rfl h
  | addGeneratedSecret => exact hrefused rfl h
  | decryptRaw =>
      unfold SeedEndpoint.seed at h
      dsimp only at h
      split at h
      · next hstarts =>
          obtain ⟨rest, hrest⟩ := of_decide_eq_true hstarts
          have hseed : seed = "system:payment_key:" ++ String.ofList rest := by
            rw [← Except.ok.inj h]
            apply String.toList_inj.mp
            simp only [String.toList_append, String.toList_ofList]
            exact hrest.symm
          rw [hseed]
          exact not_reserved (by decide)
      · cases h

end Parts

/-! ## Whose key a seed is -/

/-- A seed that is read past its owner spells the other owner after its own, and the head of the other holds its own. -/
theorem RowRequest.ReadsPast.spells {q q' : RowRequest} {row row' : SecretProfileView}
    (h : q.ReadsPast row q' row') :
    (":" ++ q'.owner).toList <:+: (q.seedTail row).toList ∧ (":" ++ q.owner).toList <:+: q'.seedHead.toList := by
  obtain ⟨u, hhead, htail⟩ := h
  refine ⟨⟨u.toList, (q'.seedTail row').toList, ?_⟩, ⟨q.seedHead.toList, u.toList, ?_⟩⟩
  · rw [htail]
    simp [String.toList_append]
  · rw [hhead]
    simp [String.toList_append]

/-- The row of a repository. -/
def RowRequest.OfRepo (q : RowRequest) : Prop := ∃ repo branch, q.accessor = .repo repo branch

/-- One of the two rows is then a repository's: of the other kinds only a payment key's seed goes on after its owner,
    and no head goes on after a payment key's. -/
theorem RowRequest.ReadsPast.ofRepo {q q' : RowRequest} {row row' : SecretProfileView}
    (h : q.ReadsPast row q' row') : q.OfRepo ∨ q'.OfRepo := by
  have hafter : q.seedTail row ≠ "" := by
    intro hnone
    obtain ⟨before, after, htail⟩ := h.spells.1
    rw [hnone] at htail
    simp at htail
  obtain ⟨u, hhead, -⟩ := h
  have hchars := congrArg String.toList hhead
  unfold RowRequest.seedHead at hchars
  cases haccessor : q.accessor with
  | repo repo branch => exact .inl ⟨repo, branch, haccessor⟩
  | wasmHash hash => exact absurd (by rw [RowRequest.seedTail, haccessor]) hafter
  | project projectId => exact absurd (by rw [RowRequest.seedTail, haccessor]) hafter
  | system secretType =>
      cases haccessor' : q'.accessor with
      | repo repo branch => exact .inr ⟨repo, branch, haccessor'⟩
      | wasmHash hash => simp [haccessor, haccessor', String.toList_append] at hchars
      | project projectId => simp [haccessor, haccessor', String.toList_append] at hchars
      | system secretType' =>
          cases secretType
          cases secretType'
          simp [haccessor, haccessor', String.toList_append] at hchars

section Owners
variable {H : Host} {s : SecretStore} {q q' : RowRequest} {row row' : SecretProfileView} {vault : Option AccountId}
  {seed seed' : String}

/-- Two owners' seeds are one exactly where one of them is read past its owner. -/
theorem seeds_eq_iff (hq : q.lookup H s = some ⟨some row, vault⟩) (hq' : q'.lookup H s = some ⟨some row', vault⟩)
    (howners : q.owner ≠ q'.owner) (hseed : q.decryptSeed row = .ok seed) (hseed' : q'.decryptSeed row' = .ok seed') :
    seed = seed' ↔ q.ReadsPast row q' row' ∨ q'.ReadsPast row' q row := by
  have hfields : q.seedHead.toList ++ ':' :: q.owner.toList ++ (q.seedTail row).toList =
      q'.seedHead.toList ++ ':' :: q'.owner.toList ++ (q'.seedTail row').toList ↔ _ :=
    eq_iff_overruns (colon_not_mem_owner hq) (colon_not_mem_owner hq') (fun h => howners (String.toList_inj.mp h))
      (seedTail_shape q row) (seedTail_shape q' row')
  rw [readsPast_iff, readsPast_iff, ← hfields, ← String.toList_inj, decryptSeed_eq hseed, decryptSeed_eq hseed']
  simp [String.toList_append]

/-- **Rows that are no repository's never share a key** with another owner's. -/
theorem seeds_differ_off_repositories (hq : q.lookup H s = some ⟨some row, vault⟩)
    (hq' : q'.lookup H s = some ⟨some row', vault⟩) (howners : q.owner ≠ q'.owner)
    (hseed : q.decryptSeed row = .ok seed) (hseed' : q'.decryptSeed row' = .ok seed') (hrepo : ¬ q.OfRepo)
    (hrepo' : ¬ q'.OfRepo) : seed ≠ seed' := by
  intro heq
  rcases (seeds_eq_iff hq hq' howners hseed hseed').mp heq with hpast | hpast
  · exact hpast.ofRepo.elim hrepo hrepo'
  · exact hpast.ofRepo.elim hrepo' hrepo

/-- **Rows whose branch or nonce does not spell the other owner never share a key.** -/
theorem seeds_differ_of_unspelled (hq : q.lookup H s = some ⟨some row, vault⟩)
    (hq' : q'.lookup H s = some ⟨some row', vault⟩) (howners : q.owner ≠ q'.owner)
    (hseed : q.decryptSeed row = .ok seed) (hseed' : q'.decryptSeed row' = .ok seed')
    (hspelled : ¬ (":" ++ q'.owner).toList <:+: (q.seedTail row).toList)
    (hspelled' : ¬ (":" ++ q.owner).toList <:+: (q'.seedTail row').toList) : seed ≠ seed' := by
  intro heq
  rcases (seeds_eq_iff hq hq' howners hseed hseed').mp heq with hpast | hpast
  · exact hspelled hpast.spells.1
  · exact hspelled' hpast.spells.1

end Owners

/-- **When two owners' secrets have different keys.** Two rows of different owners under one vault binding, each
    found by a request that is decrypted: their seeds differ exactly when neither is read past the owner of the other,
    and so do their keys. No seed the keystore takes, from a row, from an update or from a caller, is a declared
    key's. -/
theorem owners_seeds_differ_iff {H : Host} {s : SecretStore} {q q' : RowRequest} {row row' : SecretProfileView}
    {vault : Option AccountId} {seed seed' : String} (hq : q.lookup H s = some ⟨some row, vault⟩)
    (hq' : q'.lookup H s = some ⟨some row', vault⟩) (howners : q.owner ≠ q'.owner)
    (hseed : q.decryptSeed row = .ok seed) (hseed' : q'.decryptSeed row' = .ok seed') :
    (seed ≠ seed' ↔ ¬ q.ReadsPast row q' row' ∧ ¬ q'.ReadsPast row' q row) ∧
    (∀ {Key : Type} (hmac : String → Key), Function.Injective hmac →
      (hmac seed ≠ hmac seed' ↔ ¬ q.ReadsPast row q' row' ∧ ¬ q'.ReadsPast row' q row)) ∧
    (Unreserved seed ∧ Unreserved seed') ∧
    (∀ accessor owner profile text, requestSeed accessor owner profile = .ok text → Unreserved text) ∧
    ∀ (endpoint : SeedEndpoint) spelled text, endpoint.seed spelled = .ok text → Unreserved text := by
  have hdiffer : seed ≠ seed' ↔ ¬ q.ReadsPast row q' row' ∧ ¬ q'.ReadsPast row' q row := by
    rw [Ne, seeds_eq_iff hq hq' howners hseed hseed', not_or]
  refine ⟨hdiffer, ?_, ⟨decryptSeed_not_reserved hseed, decryptSeed_not_reserved hseed'⟩, ?_, ?_⟩
  · intro Key hmac hinjective
    exact hinjective.ne_iff.trans hdiffer
  · intro accessor owner profile text h
    exact requestSeed_not_reserved h
  · intro endpoint spelled text h
    exact endpoint_not_reserved h

/-- The request with which the row of a repository is read. -/
def repoRow (repo : String) (branch : Option String) (owner : AccountId) : RowRequest where
  accessor := .repo repo branch
  profile := "default"
  owner := owner.name

/-- Alice keeps a secret for one branch of her repository, bob one for a repository that is named like it. -/
def oneNameTwoOwners : List Event :=
  [callBy aliceAccount (.storeSecrets (.repo "github.com/a/app" (some "bob.near")) "default" "c2VjcmV0" .allowAll none)
      (10 ^ 24),
   callBy bobAccount (.storeSecrets (.repo "github.com/a/app:alice.near" none) "default" "c2VjcmV0" .allowAll none)
      (10 ^ 24)]

/-- What a request finds, as its seed and the vault it is bound to. -/
def RowRequest.opened (q : RowRequest) (H : Host) (s : SecretStore) : Option (Option String × Option AccountId) :=
  (q.lookup H s).map fun answer =>
    (answer.profile.bind fun row => (q.decryptSeed row).toOption, answer.vaultId)

theorem lookup_of_opened {H : Host} {s : SecretStore} {q : RowRequest} {seed : String} {vault : Option AccountId}
    (h : q.opened H s = some (some seed, vault)) :
    ∃ row, q.lookup H s = some ⟨some row, vault⟩ ∧ q.decryptSeed row = .ok seed := by
  obtain ⟨⟨profile, vaultId⟩, hanswer, hpair⟩ := Option.map_eq_some_iff.mp h
  obtain ⟨hseed, rfl⟩ := Prod.mk.inj hpair
  obtain ⟨row, rfl, hrow⟩ := Option.bind_eq_some_iff.mp hseed
  refine ⟨row, hanswer, ?_⟩
  cases hdecrypt : q.decryptSeed row with
  | error e => rw [hdecrypt] at hrow; cases hrow
  | ok text => rw [hdecrypt] at hrow; exact congrArg Except.ok (Option.some.inj hrow)

/-- **Two owners, one seed.** The contract stores a row of alice and one of bob, under no vault, whose seeds are
    the same. -/
theorem two_owners_one_seed : ∃ tr w, World.History asciiHost ownerAccount none none none tr w ∧
    ∃ (q q' : RowRequest) (row row' : SecretProfileView) (seed : String),
      q.lookup asciiHost w.contract.toSecretStore = some ⟨some row, none⟩ ∧
      q'.lookup asciiHost w.contract.toSecretStore = some ⟨some row', none⟩ ∧
      q.owner ≠ q'.owner ∧ q.decryptSeed row = .ok seed ∧ q'.decryptSeed row' = .ok seed := by
  obtain ⟨tr, w, h, hp⟩ := exists_history oneNameTwoOwners
    (fun x => decide
      ((repoRow "github.com/a/app" (some "bob.near") aliceAccount).opened asciiHost x.2.contract.toSecretStore
          = some (some "github.com/a/app:alice.near:bob.near", none) ∧
       (repoRow "github.com/a/app:alice.near" none bobAccount).opened asciiHost x.2.contract.toSecretStore
          = some (some "github.com/a/app:alice.near:bob.near", none)))
    (by decide +kernel)
  obtain ⟨halice, hbob⟩ := of_decide_eq_true hp
  obtain ⟨row, hrow, hseed⟩ := lookup_of_opened halice
  obtain ⟨row', hrow', hseed'⟩ := lookup_of_opened hbob
  exact ⟨tr, w, h, _, _, row, row', _, hrow, hrow', by decide, hseed, hseed'⟩

/-- Alice and bob each keep a secret for the same repository. -/
def oneRepoTwoOwners : List Event :=
  [callBy aliceAccount (.storeSecrets (.repo "github.com/a/app" none) "default" "c2VjcmV0" .allowAll none) (10 ^ 24),
   callBy bobAccount (.storeSecrets (.repo "github.com/a/app" none) "default" "c2VjcmV0" .allowAll none) (10 ^ 24)]

/-- Their seeds differ, and neither is read past the owner of the other. -/
theorem one_repo_two_owners : ∃ tr w, World.History asciiHost ownerAccount none none none tr w ∧
    ∃ (q q' : RowRequest) (row row' : SecretProfileView),
      q.lookup asciiHost w.contract.toSecretStore = some ⟨some row, none⟩ ∧
      q'.lookup asciiHost w.contract.toSecretStore = some ⟨some row', none⟩ ∧
      q.owner ≠ q'.owner ∧ ¬ q.ReadsPast row q' row' ∧ ¬ q'.ReadsPast row' q row := by
  obtain ⟨tr, w, h, hp⟩ := exists_history oneRepoTwoOwners
    (fun x => decide
      ((repoRow "github.com/a/app" none aliceAccount).opened asciiHost x.2.contract.toSecretStore
          = some (some "github.com/a/app:alice.near", none) ∧
       (repoRow "github.com/a/app" none bobAccount).opened asciiHost x.2.contract.toSecretStore
          = some (some "github.com/a/app:bob.near", none)))
    (by decide +kernel)
  obtain ⟨halice, hbob⟩ := of_decide_eq_true hp
  obtain ⟨row, hrow, hseed⟩ := lookup_of_opened halice
  obtain ⟨row', hrow', hseed'⟩ := lookup_of_opened hbob
  have howners : (repoRow "github.com/a/app" none aliceAccount).owner
      ≠ (repoRow "github.com/a/app" none bobAccount).owner := by decide
  have hpast := (owners_seeds_differ_iff hrow hrow' howners hseed hseed').1.mp (by decide)
  exact ⟨tr, w, h, _, _, row, row', hrow, hrow', howners, hpast⟩

/-! ## Who agrees on a seed -/

/-- The branch an update puts into the seeds, an empty one left out, is the one the row is stored under. Where the
    repository is refused there is no seed to agree on. -/
def RowRequest.SameBranch (q : RowRequest) (row : SecretProfileView) : Prop :=
  match q.accessor with
  | .repo repo branch => (repoSeedRoot repo).toOption = none ∨ branch.filter (· ≠ "") = secretBranch row
  | _                 => True

/-- Two requests spell a hash, or the nonce of a payment key, alike. -/
def RowRequest.SpelledAlike (q q' : RowRequest) : Prop :=
  match q.accessor, q'.accessor with
  | .wasmHash hash, .wasmHash hash' => hash = hash'
  | .system _, .system _            => q.profile = q'.profile
  | _, _                            => True

/-- The key of the row a request found. -/
def RowRequest.foundKey (q : RowRequest) (H : Host) (row : SecretProfileView) : Option SecretKey :=
  (AccountId.parse q.owner).map fun owner =>
    { canonicalKey H (accessorToContract q.accessor) q.profile owner with accessor := row.accessor }

/-- What a row that answers a request is stored under: the repository or project that was asked for. The branch may be
    another and the hash may be spelled otherwise. -/
def Answers (asked : SecretAccessor) (found : Outlayer.SecretAccessor) : Prop :=
  match asked with
  | .repo repo _       => ∃ branch, found = .repo (normalizeRepoUrl repo) branch
  | .wasmHash _        => ∃ hash, found = .wasmHash hash
  | .project projectId => found = .project projectId
  | .system _          => found = .system .paymentKey

theorem repoSeed_inj {root owner : String} {branch branch' : Option String}
    (h : repoSeed root owner branch = repoSeed root owner branch') : branch = branch' := by
  have hlonger : ∀ b : String, repoSeed root owner (some b) ≠ repoSeed root owner none := by
    intro b heq
    have hlen := congrArg (fun t : String => t.toList.length) heq
    simp [repoSeed, String.toList_append] at hlen
  cases branch with
  | none =>
      cases branch' with
      | none => rfl
      | some b' => exact absurd h.symm (hlonger b')
  | some b =>
      cases branch' with
      | none => exact absurd h (hlonger b)
      | some b' =>
          have hl := congrArg String.toList h
          simp only [repoSeed, String.toList_append] at hl
          exact congrArg some (String.toList_inj.mp (List.append_cancel_left hl))

/-- A text between two fixed ones. -/
theorem between_inj {before after t t' : String} : before ++ t ++ after = before ++ t' ++ after ↔ t = t' := by
  refine ⟨fun h => ?_, fun h => by rw [h]⟩
  have hl := congrArg String.toList h
  simp only [String.toList_append] at hl
  exact String.toList_inj.mp (List.append_cancel_left (List.append_cancel_right hl))

theorem repoSeedRoot_congr {repo repo' : String} (h : normalizeRepoUrl repo = normalizeRepoUrl repo') :
    repoSeedRoot repo = repoSeedRoot repo' := by
  unfold repoSeedRoot
  rw [h]

section Agreement
variable {H : Host} {s : SecretStore} {q : RowRequest} {row : SecretProfileView} {vault : Option AccountId}

/-- A row is found under the accessor of the request, or under its repository without a branch. -/
theorem accessor_of_getSecrets {accessor : Outlayer.SecretAccessor} {profile : String} {owner : AccountId}
    (h : getSecrets H s accessor profile owner = some row) :
    row.accessor = canonicalAccessor H accessor ∨
      ∃ repo branch, canonicalAccessor H accessor = .repo repo (some branch) ∧ row.accessor = .repo repo none := by
  unfold getSecrets at h
  dsimp only at h
  split at h
  · exact Or.inl (congrArg SecretProfileView.accessor (Option.some.inj h)).symm
  · split at h
    · next repo branch hrepo =>
        obtain ⟨row', -, hrow⟩ := Option.map_eq_some_iff.mp h
        exact Or.inr ⟨repo, branch, hrepo, (congrArg SecretProfileView.accessor hrow).symm⟩
    · cases h

theorem answers_of_lookup (h : q.lookup H s = some ⟨some row, vault⟩) : Answers q.accessor row.accessor := by
  obtain ⟨owner, -, hanswer⟩ := owner_of_lookup h
  have hfound := accessor_of_getSecrets (congrArg SecretWithVault.profile hanswer).symm
  cases haccessor : q.accessor with
  | repo repo branch =>
      rw [haccessor] at hfound
      rcases hfound with hsame | ⟨repo', branch', hrepo, hnone⟩
      · exact ⟨branch, hsame⟩
      · obtain ⟨rfl, -⟩ := Outlayer.SecretAccessor.repo.inj hrepo
        exact ⟨none, hnone⟩
  | wasmHash hash =>
      rw [haccessor] at hfound
      rcases hfound with hsame | ⟨repo', branch', hrepo, -⟩
      · exact ⟨_, hsame⟩
      · cases hrepo
  | project projectId =>
      rw [haccessor] at hfound
      rcases hfound with hsame | ⟨repo', branch', hrepo, -⟩
      · exact hsame
      · cases hrepo
  | system secretType =>
      cases secretType
      rw [haccessor] at hfound
      rcases hfound with hsame | ⟨repo', branch', hrepo, -⟩
      · exact hsame
      · cases hrepo

/-- Requests that find one row name one owner. -/
theorem same_row {p : RowRequest} {row' : SecretProfileView} {vault' : Option AccountId}
    (hp : p.lookup H s = some ⟨some row', vault'⟩) (hq : q.lookup H s = some ⟨some row, vault⟩)
    (hkey : p.foundKey H row' = q.foundKey H row) : p.owner = q.owner ∧ row'.accessor = row.accessor := by
  obtain ⟨owner, howner, -⟩ := owner_of_lookup hq
  obtain ⟨owner', howner', -⟩ := owner_of_lookup hp
  unfold RowRequest.foundKey at hkey
  rw [howner, howner'] at hkey
  have hsame := Option.some.inj hkey
  have howners : owner' = owner := congrArg SecretKey.owner hsame
  refine ⟨?_, congrArg SecretKey.accessor hsame⟩
  rw [parse_some howner, parse_some howner', howners]

theorem secretBranch_congr {row' : SecretProfileView} (h : row'.accessor = row.accessor) :
    secretBranch row' = secretBranch row := by
  unfold secretBranch
  rw [h]

theorem repo_seeds_agree {repo owner : String} {branch branch' : Option String} :
    ((do let root ← repoSeedRoot repo; .ok (repoSeed root owner branch) : ApiResult String)
        = do let root ← repoSeedRoot repo; .ok (repoSeed root owner branch'))
      ↔ (repoSeedRoot repo).toOption = none ∨ branch' = branch := by
  cases hroot : repoSeedRoot repo with
  | error e => exact ⟨fun _ => Or.inl rfl, fun _ => rfl⟩
  | ok root =>
      constructor
      · intro h
        exact Or.inr (repoSeed_inj (Except.ok.inj h)).symm
      · rintro (hnone | rfl)
        · cases hnone
        · rfl

/-- Two requests that one row answers are of one kind, and name one repository or one project. -/
theorem kinds_of_answers {asked asked' : SecretAccessor} {found : Outlayer.SecretAccessor} (h : Answers asked found)
    (h' : Answers asked' found) :
    (∃ repo branch repo' branch', asked = .repo repo branch ∧ asked' = .repo repo' branch'
      ∧ normalizeRepoUrl repo = normalizeRepoUrl repo')
    ∨ (∃ hash hash', asked = .wasmHash hash ∧ asked' = .wasmHash hash')
    ∨ (∃ projectId, asked = .project projectId ∧ asked' = .project projectId)
    ∨ (∃ secretType, asked = .system secretType ∧ asked' = .system secretType) := by
  cases asked with
  | repo repo branch =>
      obtain ⟨b, rfl⟩ := h
      cases asked' with
      | repo repo' branch' =>
          obtain ⟨b', hfound⟩ := h'
          exact Or.inl ⟨repo, branch, repo', branch', rfl, rfl, (Outlayer.SecretAccessor.repo.inj hfound).1⟩
      | wasmHash hash => obtain ⟨_, hfound⟩ := h'; cases hfound
      | project projectId => cases h'
      | system secretType => cases h'
  | wasmHash hash =>
      obtain ⟨b, rfl⟩ := h
      cases asked' with
      | repo repo' branch' => obtain ⟨_, hfound⟩ := h'; cases hfound
      | wasmHash hash' => exact Or.inr (Or.inl ⟨hash, hash', rfl, rfl⟩)
      | project projectId => cases h'
      | system secretType => cases h'
  | project projectId =>
      obtain rfl := h
      cases asked' with
      | repo repo' branch' => obtain ⟨_, hfound⟩ := h'; cases hfound
      | wasmHash hash => obtain ⟨_, hfound⟩ := h'; cases hfound
      | project projectId' =>
          rw [Outlayer.SecretAccessor.project.inj h']
          exact Or.inr (Or.inr (Or.inl ⟨projectId', rfl, rfl⟩))
      | system secretType => cases h'
  | system secretType =>
      obtain rfl := h
      cases asked' with
      | repo repo' branch' => obtain ⟨_, hfound⟩ := h'; cases hfound
      | wasmHash hash => obtain ⟨_, hfound⟩ := h'; cases hfound
      | project projectId' => cases h'
      | system secretType' =>
          cases secretType
          cases secretType'
          exact Or.inr (Or.inr (Or.inr ⟨.paymentKey, rfl, rfl⟩))

/-- **Reading and rewriting.** One request reads a row and another rewrites it: they have one seed exactly when the
    rewriting request names the branch of the row and the two spell the rest alike. -/
theorem decryptSeed_eq_requestSeed_iff {p : RowRequest} {row' : SecretProfileView} {vault' : Option AccountId}
    (hp : p.lookup H s = some ⟨some row', vault'⟩) (hq : q.lookup H s = some ⟨some row, vault⟩)
    (hkey : p.foundKey H row' = q.foundKey H row) :
    p.decryptSeed row' = requestSeed q.accessor q.owner q.profile ↔ q.SameBranch row ∧ p.SpelledAlike q := by
  obtain ⟨howner, hfound⟩ := same_row hp hq hkey
  have hanswers := answers_of_lookup hp
  rw [hfound] at hanswers
  rcases kinds_of_answers hanswers (answers_of_lookup hq) with ⟨repo, branch, repo', branch', hpa, hqa, hrepo⟩
    | ⟨hash, hash', hpa, hqa⟩ | ⟨projectId, hpa, hqa⟩ | ⟨secretType, hpa, hqa⟩
  · simp only [RowRequest.decryptSeed, requestSeed, RowRequest.SameBranch, RowRequest.SpelledAlike, hpa, hqa, howner,
      secretBranch_congr hfound, repoSeedRoot_congr hrepo, and_true]
    exact repo_seeds_agree
  · simp only [RowRequest.decryptSeed, requestSeed, RowRequest.SameBranch, RowRequest.SpelledAlike, hpa, hqa, howner,
      true_and, Except.ok.injEq]
    have hend := @between_inj "wasm_hash:" (":" ++ q.owner) hash hash'
    rwa [← String.append_assoc, ← String.append_assoc] at hend
  · simp only [RowRequest.decryptSeed, requestSeed, RowRequest.SameBranch, RowRequest.SpelledAlike, hpa, hqa, howner,
      and_true]
  · simp only [RowRequest.decryptSeed, requestSeed, RowRequest.SameBranch, RowRequest.SpelledAlike, hpa, hqa, howner,
      true_and, Except.ok.injEq]
    have hend := @between_inj ("system:" ++ secretType.asSeedStr ++ ":" ++ q.owner ++ ":") "" p.profile q.profile
    rwa [String.append_empty, String.append_empty] at hend

end Agreement

/-- **When a row is read and rewritten under one seed.** For a request the contract answers with a row: the seed it is
    decrypted with, the seed an update opens it with and, when it is not moved, the seed it is encrypted under again
    are one exactly when the request names the branch of the row. Another request that reads the same row agrees with
    the update exactly when, besides, the two spell a hash or a nonce alike. -/
theorem one_seed_iff_same_branch {H : Host} {s : SecretStore} {q : UpdateRequest} {row : SecretProfileView}
    {vault : Option AccountId} (hq : q.lookup H s = some ⟨some row, vault⟩) :
    (q.decryptSeed row = q.existingSeed ∧ (q.newAccessor = none → q.encryptionSeed = q.existingSeed)
      ↔ q.SameBranch row) ∧
    ∀ (p : RowRequest) row' vault', p.lookup H s = some ⟨some row', vault'⟩ →
      p.foundKey H row' = q.foundKey H row →
      (p.decryptSeed row' = q.existingSeed ↔ q.SameBranch row ∧ p.SpelledAlike q.toRowRequest) := by
  have hothers : ∀ (p : RowRequest) row' vault', p.lookup H s = some ⟨some row', vault'⟩ →
      p.foundKey H row' = q.foundKey H row →
      (p.decryptSeed row' = q.existingSeed ↔ q.SameBranch row ∧ p.SpelledAlike q.toRowRequest) := by
    intro p row' vault' hp hkey
    exact decryptSeed_eq_requestSeed_iff hp hq hkey
  refine ⟨?_, hothers⟩
  have halike : q.SpelledAlike q.toRowRequest := by
    unfold RowRequest.SpelledAlike
    split
    · next h h' => exact SecretAccessor.wasmHash.inj (h.symm.trans h')
    · rfl
    · trivial
  have hkept : q.newAccessor = none → q.encryptionSeed = q.existingSeed := by
    intro hnone
    unfold UpdateRequest.encryptionSeed
    rw [hnone]
    rfl
  rw [hothers q.toRowRequest row vault hq rfl, and_iff_left halike]
  exact and_iff_left hkept

/-- A secret of alice for a repository, whatever the branch. -/
def anyBranch : List Event :=
  [callBy aliceAccount (.storeSecrets (.repo "github.com/alice/app" none) "default" "c2VjcmV0" .allowAll none)
      (10 ^ 24)]

theorem anyBranch_found (branch : Option String)
    (hopened : ((World.replay anyBranch).any fun x => decide
      ((repoRow "github.com/alice/app" branch aliceAccount).opened asciiHost x.2.contract.toSecretStore
        = some (some "github.com/alice/app:alice.near", none))) = true) :
    ∃ tr w, World.History asciiHost ownerAccount none none none tr w ∧ ∃ row,
      (repoRow "github.com/alice/app" branch aliceAccount).lookup asciiHost w.contract.toSecretStore
        = some ⟨some row, none⟩ ∧
      (repoRow "github.com/alice/app" branch aliceAccount).decryptSeed row
        = .ok "github.com/alice/app:alice.near" := by
  obtain ⟨tr, w, h, hp⟩ := exists_history anyBranch _ hopened
  obtain ⟨row, hrow, hseed⟩ := lookup_of_opened (of_decide_eq_true hp)
  exact ⟨tr, w, h, row, hrow, hseed⟩

/-- **A row that is read and not rewritten.** The row of no branch answers a request for `main`: it is decrypted with
    the seed of no branch, and an update opens it with the seed of `main`. -/
theorem fallback_opened_elsewhere : ∃ tr w, World.History asciiHost ownerAccount none none none tr w ∧
    ∃ (q : UpdateRequest) (row : SecretProfileView),
      q.lookup asciiHost w.contract.toSecretStore = some ⟨some row, none⟩ ∧
      q.decryptSeed row = .ok "github.com/alice/app:alice.near" ∧
      q.existingSeed = .ok "github.com/alice/app:alice.near:main" ∧ q.decryptSeed row ≠ q.existingSeed := by
  obtain ⟨tr, w, h, row, hrow, hseed⟩ := anyBranch_found (some "main") (by decide +kernel)
  let q : UpdateRequest := ⟨repoRow "github.com/alice/app" (some "main") aliceAccount, none⟩
  have hexisting : q.existingSeed = .ok "github.com/alice/app:alice.near:main" := by decide +kernel
  refine ⟨tr, w, h, q, row, hrow, hseed, hexisting, ?_⟩
  rw [hexisting, show q.decryptSeed row = _ from hseed]
  intro hsame
  exact absurd (Except.ok.inj hsame) (by decide)

/-- Asked for without a branch, the row is rewritten under the seed it is read with. -/
theorem same_branch_rewritten : ∃ tr w, World.History asciiHost ownerAccount none none none tr w ∧
    ∃ (q : UpdateRequest) (row : SecretProfileView),
      q.lookup asciiHost w.contract.toSecretStore = some ⟨some row, none⟩ ∧ q.newAccessor = none ∧
      q.decryptSeed row = q.existingSeed ∧ q.encryptionSeed = q.existingSeed ∧ q.SameBranch row := by
  obtain ⟨tr, w, h, row, hrow, hseed⟩ := anyBranch_found none (by decide +kernel)
  let q : UpdateRequest := ⟨repoRow "github.com/alice/app" none aliceAccount, none⟩
  have hagree : q.decryptSeed row = q.existingSeed := by
    rw [show q.existingSeed = .ok "github.com/alice/app:alice.near" by decide +kernel]
    exact hseed
  have hbranch := (one_seed_iff_same_branch hrow).1.mp ⟨hagree, fun _ => rfl⟩
  exact ⟨tr, w, h, q, row, hrow, rfl, hagree, rfl, hbranch⟩

end Keystore
end Outlayer
