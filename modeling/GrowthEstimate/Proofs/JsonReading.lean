import GrowthEstimate.Json.Reading
import GrowthEstimate.Proofs.JsonTokens

/-!
# Values read back

The tokens of a value build the value, inside of any containers, so what a value is written as is
read as the value when nothing limits its size.

* `builds_items`, `builds_members`: the contents of a container, after those read before;
* `builds_tokensOf`: a value becomes part of the innermost container;
* `parse_write`: a plain value is read back, in every style.
-/

namespace GrowthEstimate.Json

open Builder

/-- The tokens, where a value may begin, complete the value and nothing else. -/
def Builds (found : List Token) (value : Json) : Prop :=
  ∀ stack expects rest, expects = .value ∨ expects = .firstItem →
    Builder.run unlimited ⟨stack, expects⟩ (found ++ rest) =
      (put value stack).bind fun b => b.run unlimited rest

/-- The tokens are the key of the member and build its value. -/
def BuildsMember (found : List Token) (member : Text × Json) : Prop :=
  ∃ value, found = .string (.ofText member.1) :: .colon :: value ∧ Builds value member.2

theorem run_token (b : Builder) (token : Token) (rest : List Token) :
    b.run unlimited (token :: rest) =
      (b.step unlimited token).bind fun b => b.run unlimited rest := by
  rw [Builder.run]
  cases b.step unlimited token <;> rfl

/-- A token that is a value by itself. -/
theorem builds_single {token : Token} {value : Json}
    (h : ∀ stack expects, expects = .value ∨ expects = .firstItem →
      Builder.step unlimited ⟨stack, expects⟩ token = put value stack) :
    Builds [token] value := by
  intro stack expects rest hexpects
  rw [List.singleton_append, run_token, h stack expects hexpects]

theorem comma_intercalate (tokens next : List Token) (found : List (List Token))
    (rest : List Token) :
    [.comma].intercalate (tokens :: next :: found) ++ rest =
      tokens ++ .comma :: ([.comma].intercalate (next :: found) ++ rest) := by
  simp [List.intercalate]

theorem intercalate_single (tokens rest : List Token) :
    [.comma].intercalate [tokens] ++ rest = tokens ++ rest := by
  simp [List.intercalate]

/-- The items of an array, behind those that were read before. -/
theorem builds_items {found : List (List Token)} {items : List Json}
    (h : List.Forall₂ Builds found items) (hne : items ≠ []) (before : List Json)
    (stack : List Frame) {expects : Expectation}
    (hexpects : expects = .value ∨ expects = .firstItem) (rest : List Token) :
    Builder.run unlimited ⟨.array before :: stack, expects⟩
        ([.comma].intercalate found ++ .closeArray :: rest) =
      (put (.array (before.reverse ++ items)) stack).bind fun b => b.run unlimited rest := by
  induction h generalizing before expects with
  | nil => exact absurd rfl hne
  | @cons tokens item found items hitem hrest ih =>
    cases hrest with
    | nil =>
      have hclose :
          Builder.step unlimited ⟨.array (item :: before) :: stack, .separator⟩ .closeArray =
            put (.array (before.reverse ++ [item])) stack := by
        rw [← List.reverse_cons]
        rfl
      rw [intercalate_single, hitem _ _ _ hexpects, ← hclose]
      exact run_token _ _ _
    | cons _ _ =>
      have hrun := ih (List.cons_ne_nil _ _) (item :: before) (.inl rfl)
      rw [List.reverse_cons, List.append_assoc] at hrun
      rw [comma_intercalate, hitem _ _ _ hexpects]
      exact (run_token ⟨.array (item :: before) :: stack, .separator⟩ .comma _).trans hrun

/-- The members of an object, behind those that were read before. -/
theorem builds_members {found : List (List Token)} {members : List (Text × Json)}
    (h : List.Forall₂ BuildsMember found members) (hne : members ≠ [])
    (before : List (Text × Json)) (stack : List Frame)
    {expects : Expectation} (hexpects : expects = .key ∨ expects = .firstKey) (rest : List Token) :
    Builder.run unlimited ⟨.object before :: stack, expects⟩
        ([.comma].intercalate found ++ .closeObject :: rest) =
      (put (.object (before.reverse ++ members)) stack).bind fun b => b.run unlimited rest := by
  induction h generalizing before expects with
  | nil => exact absurd rfl hne
  | @cons tokens member found members hmember hrest ih =>
    obtain ⟨value, rfl, hvalue⟩ := hmember
    -- The key and the colon are read before the value, which then stands on top of them.
    have hname : Builder.step unlimited ⟨.object before :: stack, expects⟩
        (.string (.ofText member.1)) =
          .ok ⟨.member member.1 :: .object before :: stack, .colon⟩ := by
      have hkey : withKey (.object before :: stack) (.ofText member.1) =
          ⟨.member member.1 :: .object before :: stack, .colon⟩ := by
        rw [withKey, CodePoints.text?_ofText, Option.getD_some]
      rw [← hkey]
      rcases hexpects with rfl | rfl <;> rfl
    have hkey (rest : List Token) : Builder.run unlimited ⟨.object before :: stack, expects⟩
        (.string (.ofText member.1) :: .colon :: value ++ rest) =
          Builder.run unlimited ⟨.object (member :: before) :: stack, .separator⟩ rest := by
      have hmember := hvalue (.member member.1 :: .object before :: stack) .value rest (.inl rfl)
      rw [List.cons_append, run_token, hname]
      exact hmember
    cases hrest with
    | nil =>
      have hclose :
          Builder.step unlimited ⟨.object (member :: before) :: stack, .separator⟩ .closeObject =
            put (.object (before.reverse ++ [member])) stack := by
        rw [← List.reverse_cons]
        rfl
      rw [intercalate_single, hkey, ← hclose]
      exact run_token _ _ _
    | cons _ _ =>
      have hrun := ih (List.cons_ne_nil _ _) (member :: before) (.inl rfl)
      rw [List.reverse_cons, List.append_assoc] at hrun
      rw [comma_intercalate, hkey]
      exact (run_token ⟨.object (member :: before) :: stack, .separator⟩ .comma _).trans hrun

theorem builds_array {found : List (List Token)} {items : List Json}
    (h : List.Forall₂ Builds found items) :
    Builds (.openArray :: [.comma].intercalate found ++ [.closeArray]) (.array items) := by
  intro stack expects rest hexpects
  have hopen : Builder.step unlimited ⟨stack, expects⟩ .openArray =
      .ok ⟨.array [] :: stack, .firstItem⟩ := by
    rcases hexpects with rfl | rfl <;> rfl
  rw [List.append_assoc, List.cons_append, run_token, hopen]
  cases h with
  | nil => exact run_token _ _ _
  | cons hitem hrest =>
    exact builds_items (.cons hitem hrest) (List.cons_ne_nil _ _) [] stack (.inr rfl) rest

theorem builds_object {found : List (List Token)} {members : List (Text × Json)}
    (h : List.Forall₂ BuildsMember found members) :
    Builds (.openObject :: [.comma].intercalate found ++ [.closeObject]) (.object members) := by
  intro stack expects rest hexpects
  have hopen : Builder.step unlimited ⟨stack, expects⟩ .openObject =
      .ok ⟨.object [] :: stack, .firstKey⟩ := by
    rcases hexpects with rfl | rfl <;> rfl
  rw [List.append_assoc, List.cons_append, run_token, hopen]
  cases h with
  | nil => exact run_token _ _ _
  | cons hmember hrest =>
    exact builds_members (.cons hmember hrest) (List.cons_ne_nil _ _) [] stack (.inr rfl) rest

mutual

/-- The tokens of a plain value build the value. -/
theorem builds_tokensOf : ∀ j : Json, IsPlain j → Builds (tokensOf j) j
  | .null, _ => by
    rw [tokensOf]
    exact builds_single fun _ _ h => by rcases h with rfl | rfl <;> rfl
  | .bool b, _ => by
    rw [tokensOf]
    exact builds_single fun _ _ h => by rcases h with rfl | rfl <;> rfl
  | .int n, _ => by
    rw [tokensOf]
    have hput (stack : List Frame) (expects : Expectation)
        (h : expects = .value ∨ expects = .firstItem) :
        Builder.step unlimited ⟨stack, expects⟩
            (.whole (decide (n < 0)) (Decimal.ofNat n.natAbs)) =
          put (.int (Decimal.signed (decide (n < 0)) (Decimal.ofNat n.natAbs))) stack := by
      rcases h with rfl | rfl <;> rfl
    rw [signed_natAbs] at hput
    exact builds_single hput
  | .float x, _ => by
    rw [tokensOf]
    exact builds_single fun _ _ h => by rcases h with rfl | rfl <;> rfl
  | .text s, _ => by
    rw [tokensOf, ← ofPoints_ofText]
    exact builds_single fun _ _ h => by rcases h with rfl | rfl <;> rfl
  | .points _, h => h.elim
  | .array items, h => by
    have hitems := builds_tokensOfItems items h
    rw [tokensOf]
    exact builds_array hitems
  | .object members, h => by
    have hmembers := builds_tokensOfMembers members h
    rw [tokensOf]
    exact builds_object hmembers

theorem builds_tokensOfItems : ∀ items : List Json, ItemsPlain items →
    List.Forall₂ Builds (tokensOfItems items) items
  | [], _ => .nil
  | item :: rest, h => .cons (builds_tokensOf item h.1) (builds_tokensOfItems rest h.2)

theorem builds_tokensOfMembers : ∀ members : List (Text × Json), MembersPlain members →
    List.Forall₂ BuildsMember (tokensOfMembers members) members
  | [], _ => .nil
  | (_, value) :: rest, h =>
    .cons ⟨_, rfl, builds_tokensOf value h.1⟩ (builds_tokensOfMembers rest h.2)

end

/-- A value is read back from its text, compact or on lines, plain ASCII or not. -/
theorem parse_write (style : Style) {j : Json} (h : IsPlain j) :
    parse? (write style j) = some j := by
  have htokens : tokens (write style j) = tokensOf j := tokens_of_reads (reads_render style 0 j h)
  have hbuilt := builds_tokensOf j h [] .value [] (.inl rfl)
  rw [List.append_nil] at hbuilt
  rw [parse?, parse, ofTokens, htokens, hbuilt]
  rfl

end GrowthEstimate.Json
