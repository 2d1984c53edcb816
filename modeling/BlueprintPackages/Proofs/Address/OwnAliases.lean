import BlueprintPackages.Proofs.Address.AliasExpansion

/-!
# Whose aliases a lookup asks for

A lookup expands an alias before it walks, and a walk expands none. So from two packages that mean
the same by every alias, in trees that differ in no more than the tables of aliases, every address
leads to the same entity (`lookups_ask_for_own_aliases`): neither the packages on the way nor those
around the start are asked for theirs.
-/

namespace BlueprintPackages.Package

variable {p q : Package} {address text : String}

theorem Expands.congr (haliases : ∀ aliasName, p.alias? aliasName = q.alias? aliasName)
    (h : p.Expands address text) : q.Expands address text := by
  cases h with
  | plain h => exact .plain h
  | expanded huses halias => exact .expanded huses (haliases _ ▸ halias)

/-- The same name is looked up from both, at ends of ways that are the same without aliases. -/
theorem exists_looksUp_alike (htree : p.withoutAliases = q.withoutAliases)
    (haliases : ∀ aliasName, p.alias? aliasName = q.alias? aliasName) (address : String) :
    ∃ owner owner' name, p.LooksUp address owner name ∧ q.LooksUp address owner' name ∧
      owner.map withoutAliases = owner'.map withoutAliases := by
  rcases p.expands_or_unresolved address with ⟨text, hp⟩ | ⟨aliasName, rest, huses, hp⟩
  · have hq : q.Expands address text := hp.congr haliases
    rcases Address.slash_free_or_splitsInto text with hfree | ⟨segments, name, hsplit⟩
    · have hresolve : ∀ r : Package, r.Expands address text →
          r.resolve address = (Except.ok r).map fun r => (r, text) := by
        intro r hr
        rw [resolve_of_expands hr, follow_of_slash_free hfree]
        rfl
      exact ⟨.ok p, .ok q, text, looksUp_of_resolve (hresolve p hp),
        looksUp_of_resolve (hresolve q hq), congrArg Except.ok htree⟩
    · refine ⟨_, _, name, looksUp_of_splitsInto hp hsplit, looksUp_of_splitsInto hq hsplit, ?_⟩
      rw [← walk_withoutAliases, ← walk_withoutAliases, htree]
  · have hname : p.name = q.name := by
      rw [← name_withoutAliases, htree, name_withoutAliases]
    have hq : q.alias? aliasName = none := (haliases aliasName).symm.trans hp
    have herror : p.resolve address =
        (Except.error (.unresolvedAlias aliasName p.name)).map fun r => (r, "") :=
      resolve_of_unresolved huses hp
    have herror' : q.resolve address =
        (Except.error (.unresolvedAlias aliasName p.name)).map fun r => (r, "") :=
      hname ▸ resolve_of_unresolved huses hq
    exact ⟨_, _, "", looksUp_of_resolve herror, looksUp_of_resolve herror', rfl⟩

/-- No other table than that of the package where it starts makes a difference to a lookup. -/
theorem lookups_ask_for_own_aliases (htree : p.withoutAliases = q.withoutAliases)
    (haliases : ∀ aliasName, p.alias? aliasName = q.alias? aliasName) (address : String) :
    (p.blueprintAt address).map Resolved.withoutAliases =
        (q.blueprintAt address).map Resolved.withoutAliases ∧
      (p.enumerationAt address).map Resolved.withoutAliases =
        (q.enumerationAt address).map Resolved.withoutAliases := by
  obtain ⟨owner, owner', name, hp, hq, howner⟩ := exists_looksUp_alike htree haliases address
  constructor
  · have hfind : ∀ r : Package, r.withoutAliases.blueprint name = r.blueprint name :=
      fun r => r.blueprint_withoutAliases name
    rw [hp.blueprint, hq.blueprint, bind_withoutAliases hfind, bind_withoutAliases hfind, howner]
  · have hfind : ∀ r : Package, r.withoutAliases.enumeration name = r.enumeration name :=
      fun r => r.enumeration_withoutAliases name
    rw [hp.enumeration, hq.enumeration, bind_withoutAliases hfind, bind_withoutAliases hfind,
      howner]

end BlueprintPackages.Package
