import ComponentAtlas.Source.Reader

namespace ComponentAtlas.Source

inductive Rule (σ : Type) where
  | token (kind : Kind) (scan : Scan)
  -- A token with nothing between it and the last one.
  | glued (kind : Kind) (scan : Scan)
  | seq (rules : List (Rule σ))
  | alt (rules : List (Rule σ))
  | star (rule : Rule σ)
  | call (symbol : σ)
  | node (kind : Kind) (rule : Rule σ)
  -- A list of its own, which `fold` may gather.
  | frame (rule : Rule σ)
  -- Gathers the whole list together with what the rule reads: a left-nested node.
  | fold (kind : Kind) (rule : Rule σ)
  | role (role : Role) (rule : Rule σ)
  -- Whether a line end may close the statement while the rule is read.
  | lines (may : Bool) (rule : Rule σ)
  | ahead (rule : Rule σ)
  | absent (rule : Rule σ)
  -- Fails where a line end closes the statement.
  | goesOn (afterValue : Bool)
  -- Succeeds only where a line end closes the statement.
  | lineBreak (afterValue : Bool)

namespace Rule

variable {σ : Type}

-- Reads by `rule`; `fuel` bounds the depth of the search.
def run (table : σ → Rule σ) : (fuel : Nat) → (may : Bool) → Rule σ → Reader → Option Reader
  | 0, _, _, _ => none
  | fuel + 1, may, rule, s =>
    match rule with
    | token kind scan => s.token kind scan
    | glued kind scan => s.glued kind scan
    | seq [] => some s
    | seq (r :: rs) =>
      match run table fuel may r s with
      | some s' => run table fuel may (seq rs) s'
      | none => none
    | alt [] => none
    | alt (r :: rs) =>
      match run table fuel may r s with
      | some s' => some s'
      | none => run table fuel may (alt rs) s
    | star r =>
      match run table fuel may r s with
      | some s' => if s.here.index < s'.here.index then run table fuel may (star r) s' else some s
      | none => some s
    | call symbol => run table fuel may (table symbol) s
    | node kind r =>
      match run table fuel may r s.enter with
      | some s' => some (s'.leave s [s'.wrap kind s.next])
      | none => none
    | frame r =>
      match run table fuel may r s.enter with
      | some s' => some (s'.leave s s'.out)
      | none => none
    | fold kind r => (run table fuel may r s).map (·.gather kind)
    | role part r =>
      match run table fuel may r s.enter with
      | some s' => some (s'.leave s (s'.out.map fun n => if n.isComment then n else n.withRole part))
      | none => none
    | lines may r => run table fuel may r s
    | ahead r => if (run table fuel may r s).isSome then some s else none
    | absent r => if (run table fuel may r s).isSome then none else some s
    | goesOn afterValue => if may && (s.lineBreak? afterValue).isSome then none else some s
    | lineBreak afterValue => s.lineBreak? afterValue

end Rule
end ComponentAtlas.Source
