import ComponentAtlas.Command.Run
import ComponentAtlas.Proofs.BoundedRuns
import ComponentAtlas.Proofs.LinkSteps

namespace ComponentAtlas
open Outline

namespace Lineage

-- The next element of a chain: the superclass of a class, or the one parent of an interface.
inductive Follows : Lineage → Lineage → Prop where
  | superclass (isClass : t.symbol.kind = .classSymbol) (above : t.superclass = some parent) : Follows t parent
  | interface (isInterface : t.symbol.kind = .interfaceSymbol) (sole : t.interfaces = [parent]) : Follows t parent

-- Where a chain ends: no superclass, no parent or several of them, or a kind without parents.
inductive Ends : Lineage → Prop where
  | noSuperclass (isClass : t.symbol.kind = .classSymbol) (none : t.superclass = none) : Ends t
  | notOneParent (isInterface : t.symbol.kind = .interfaceSymbol) (count : t.interfaces.length ≠ 1) : Ends t
  | ofType (kind : t.symbol.kind = .aliasSymbol ∨ t.symbol.kind = .enumSymbol) : Ends t

inductive Line : Lineage → List Lineage → Prop where
  | top (ends : t.Ends) : Line t [t]
  | up (next : t.Follows parent) (rest : Line parent above) : Line t (t :: above)

theorem line_chain (t : Lineage) : Line t t.chain := by
  induction t using chain.induct with
  | case1 symbol superclass interfaces ih =>
    rw [chain.eq_def]
    cases declared : symbol.declaration with
    | classDecl d =>
      have kind : symbol.kind = .classSymbol := by simp [Symbol.kind, declared]
      simp only [declared] at ih ⊢
      cases superclass with
      | none => exact .top (.noSuperclass kind rfl)
      | some parent => exact .up (.superclass kind rfl) ih
    | interfaceDecl d =>
      have kind : symbol.kind = .interfaceSymbol := by simp [Symbol.kind, declared]
      simp only [declared] at ih ⊢
      cases interfaces with
      | nil => exact .top (.notOneParent kind (by simp [Lineage.interfaces]))
      | cons parent others =>
        cases others with
        | nil => exact .up (.interface kind rfl) ih
        | cons => exact .top (.notOneParent kind (by simp [Lineage.interfaces]))
    | aliasDecl d =>
      have kind : symbol.kind = .aliasSymbol := by simp [Symbol.kind, declared]
      simp only [declared]
      exact .top (.ofType (.inl kind))
    | enumDecl d =>
      have kind : symbol.kind = .enumSymbol := by simp [Symbol.kind, declared]
      simp only [declared]
      exact .top (.ofType (.inr kind))

variable {t parent : Lineage} {elements : List Lineage}

theorem Follows.above (next : t.Follows parent) : parent ∈ t.parents := by
  cases next with
  | superclass _ above => simp [parents, above]
  | interface _ sole => simp [parents, sole]

namespace Line

theorem starts (line : Line t elements) : ∃ above, elements = t :: above := by
  cases line with
  | top => exact ⟨[], rfl⟩
  | up => exact ⟨_, rfl⟩

theorem isChain (line : Line t elements) : elements.IsChain Follows := by
  induction line with
  | top => exact .singleton _
  | up next rest ih =>
    obtain ⟨above, rfl⟩ := rest.starts
    exact .cons_cons next ih

theorem last (line : Line t elements) : ∀ top ∈ elements.getLast?, top.Ends := by
  induction line with
  | top ends => simpa using ends
  | up next rest ih =>
    obtain ⟨above, rfl⟩ := rest.starts
    simpa using ih

theorem way (line : Line t elements) : t.Way (elements.map (·.symbol.hop)) := by
  induction line with
  | top => exact .stop
  | up next rest ih => exact .up next.above ih

end Line
end Lineage

-- The names that a summary shows on the way up, as long as there is one way only.
def Summary.line : Summary → List String
  | ⟨name, _, _, _, _, _, superclass, _, superInterfaces, _⟩ =>
    name ::
      match superclass, superInterfaces with
      | some above, _ => above.line
      | none, [above] => above.line
      | none, _ => []

namespace Lineage

theorem line_summary (t : Lineage) : t.summary.line = t.symbol.name ::
    match t.symbol.kind, t.superclass, t.interfaces with
    | .classSymbol, some parent, _ => parent.summary.line
    | .interfaceSymbol, _, [parent] => parent.summary.line
    | _, _, _ => [] := by
  cases t with
  | node symbol superclass interfaces =>
    rw [summary]
    simp only [Lineage.symbol, Lineage.superclass, Lineage.interfaces, Symbol.kind]
    cases symbol.declaration with
    | classDecl d => cases superclass <;> simp [summaryOption, Summary.line, Summary.ofSymbol]
    | interfaceDecl d =>
      cases interfaces with
      | nil => simp [summaryList, Summary.line, Summary.ofSymbol]
      | cons parent others => cases others <;> simp [summaryList, Summary.line, Summary.ofSymbol]
    | aliasDecl d => simp [Summary.line, Summary.ofSymbol]
    | enumDecl d => simp [Summary.line, Summary.ofSymbol]

theorem Line.names (line : Line t elements) : t.summary.line = elements.map (·.symbol.name) := by
  induction line with
  | @top t ends =>
    rw [line_summary]
    cases ends with
    | noSuperclass isClass none => simp [isClass, none]
    | notOneParent isInterface count =>
      rw [isInterface]
      cases parents : t.interfaces with
      | nil => rfl
      | cons parent others =>
        cases others with
        | nil => simp [parents] at count
        | cons => rfl
    | ofType kind => rcases kind with kind | kind <;> simp [kind]
  | up next rest ih =>
    rw [line_summary]
    cases next with
    | superclass isClass above => simp [isClass, above, ih]
    | interface isInterface sole => simp [isInterface, sole, ih]

end Lineage

namespace Link

variable {σ : Type} {p : Provider σ} {within : σ → Prop}

-- The next element was found for an entry that only its own kind can stand for.
theorem Built.follows (built : Built p within ancestry t) (next : t.Follows parent) :
    parent.symbol.kind = t.symbol.kind ∧ Built p within (ancestry ++ [t.symbol.hop]) parent := by
  obtain ⟨mirrors, -, above⟩ := built.above
  refine ⟨?_, above parent next.above⟩
  unfold Lineage.Mirrors at mirrors
  cases next with
  | superclass isClass superclass =>
    rw [superclass] at mirrors
    split at mirrors
    · rename_i d declared
      obtain ⟨found, -⟩ := mirrors
      cases extends? : d.superclass with
      | none =>
        rw [extends?] at found
        cases found
      | some heritage =>
        rw [extends?] at found
        cases found with
        | cons first =>
          obtain ⟨w, w', -, resolved⟩ := first.resolved
          rw [isClass]
          exact resolveHeritage_class rfl resolved
    · cases mirrors.1
    · cases mirrors.1
    · cases mirrors.1
  | interface isInterface sole =>
    rw [sole] at mirrors
    split at mirrors
    · rename_i d declared
      simp [Symbol.kind, declared] at isInterface
    · obtain ⟨-, found⟩ := mirrors
      generalize List.map _ _ = entries at found
      cases found with
      | cons first =>
        rw [isInterface]
        exact admitted_ok first.admitted isInterface
    · cases mirrors.2
    · cases mirrors.2

theorem Built.kinds (line : Lineage.Line t chain) (built : Built p within ancestry t) :
    ∀ u ∈ chain, u.symbol.kind = t.symbol.kind := by
  induction line generalizing ancestry with
  | top => simp
  | up next rest ih =>
    obtain ⟨same, above⟩ := built.follows next
    intro u member
    rcases List.mem_cons.mp member with rfl | member
    · rfl
    · exact (ih above u member).trans same

end Link

-- A chain starts with the lineage that is loaded for the symbol and goes on to the only parent of each element, up to one
-- that has none or several. All its elements are of one kind and no two of them are the same, and it has the names
-- that the summary of the first shows.
theorem loadChain_linear {σ : Type} {p : Provider σ} {w w' : Work σ}
    (loaded : loadChain p symbol w = some (.ok chain, w')) :
    ∃ root above, chain = root :: above ∧ loadLineage p symbol w = some (.ok root, w') ∧ root.symbol = symbol ∧
      chain.IsChain Lineage.Follows ∧ (∀ top ∈ chain.getLast?, top.Ends) ∧
      (∀ t ∈ chain, t.symbol.kind = symbol.kind) ∧ (chain.map (·.symbol.hop)).Nodup ∧
      chain.map (·.symbol.name) = root.summary.line := by
  obtain ⟨⟨result, after⟩, linked, equal⟩ := Option.bind_eq_some_iff.mp loaded
  cases result with
  | error e => cases equal
  | ok root =>
    cases equal
    have line := root.line_chain
    obtain ⟨above, starts⟩ := line.starts
    obtain ⟨rfl, built⟩ : root.symbol = symbol ∧ Link.Built p (fun _ => True) [] root :=
      Link.link_built (fun _ _ _ => trivial) trivial linked
    exact ⟨root, above, starts, linked, rfl, line.isChain, line.last, built.kinds line,
      (built.fresh _ line.way).1, line.names.symm⟩

def rim : Declaration := rung "Rim" ["Disc"]

def rimmed : SourceFile := .ofForms "shapes.ts" ((rim :: rungs).map (.declaration .named ·))

theorem loadChain_linear_rim : ∃ chain w', loadChain (.ofFiles [rimmed]) (seat rim) (.start ()) = some (.ok chain, w') ∧
    chain.map (·.symbol.name) = ["Rim", "Disc"] ∧ (∀ t ∈ chain, t.symbol.kind = .interfaceSymbol) ∧
    ∃ root, chain.head? = some root ∧ root.summary.line = ["Rim", "Disc"] := by
  have seen : (Work.linkWithin (.ofFiles [rimmed]) 10 [] (seat rim) (.start ())).map
      (·.1.toOption.map (·.chain.map (·.symbol.name))) = some (some ["Rim", "Disc"]) := by decide +kernel
  obtain ⟨⟨result, w'⟩, ended, shown⟩ := Option.map_eq_some_iff.mp seen
  have linked := Work.linkWithin_completes _ _ _ _ _ ended
  cases result with
  | error e => cases shown
  | ok t =>
    have names : t.chain.map (·.symbol.name) = ["Rim", "Disc"] := Option.some.inj shown
    have loaded : loadChain (.ofFiles [rimmed]) (seat rim) (.start ()) = some (.ok t.chain, w') :=
      Option.bind_eq_some_iff.mpr ⟨_, linked, rfl⟩
    obtain ⟨root, above, starts, -, -, -, -, kinds, -, equal⟩ := loadChain_linear loaded
    exact ⟨t.chain, w', loaded, names, kinds, root, by rw [starts]; rfl, equal.symm.trans names⟩

namespace Command

-- So the command has a chain to show whenever it finds one, and never takes the way out for an empty chain.
theorem runResolve_shows (found : findChain o (.start (.ofTree p.session.tree)) = some (.ok chain, w)) :
    ∃ root above, chain = root :: above ∧ runResolve p o = some {
      exit := ExitStatus.success.number
      output := [(chainJson chain root w.diagnostics).pretty]
      errors := p.log w.log
      tree := w.state.tree } := by
  obtain ⟨⟨result, between⟩, resolved, loaded⟩ := Option.bind_eq_some_iff.mp found
  cases result with
  | error e => cases loaded
  | ok symbol =>
    obtain ⟨⟨result, after⟩, linked, equal⟩ := Option.bind_eq_some_iff.mp loaded
    cases result with
    | error e => cases equal
    | ok root =>
      cases equal
      obtain ⟨above, starts⟩ := root.line_chain.starts
      refine ⟨root, above, starts, ?_⟩
      rw [runResolve, found, starts]
      rfl

end Command
end ComponentAtlas
