import MediaCommand.Proofs.Graph.Account
import MediaCommand.Proofs.Tokens

/-!
# What a filter set says

The text of a set is made from labels that are kept in brackets, while its account keeps them
apart. `depicts_run` shows that graphs and sets are at all times drawn as their accounts tell, one
step lemma for each call, and `readAll_renderNow` that the text of a set is read back as its
statements by the grammar alone.
-/

namespace MediaCommand

open MediaCommand.Action (Respects)

/-! ## Frames -/

theorem sameGraphs_withNames {α : Type} (action : Action FilterNames α) :
    Respects Workspace.SameGraphs (Workspace.withNames action) :=
  .within action fun _ _ => ⟨rfl, rfl⟩

theorem sameGraphs_run {α : Type} (ref : Ref .node) (edit : Node.Edit α) :
    Respects Workspace.SameGraphs (Node.run ref edit) :=
  .bind (.require _) fun _ => .within edit fun _ _ => ⟨rfl, rfl⟩

theorem sameGraphs_filterName (node : Node) :
    Respects Workspace.SameGraphs node.filterName := by
  unfold Node.filterName
  split
  · exact .pure _
  · exact sameGraphs_withNames _

theorem sameGraphs_render (ref : Ref .node) : Respects Workspace.SameGraphs (Node.render ref) :=
  .bind (sameGraphs_run _ _) fun _ => .bind (.require _) fun node =>
    .bind (sameGraphs_filterName node) fun _ => .pure _

/-- Reading graphs changes nothing, whatever is to be kept. -/
theorem respects_currentGraphs {R : Workspace → Workspace → Prop} [IsPreorder Workspace R]
    (refs : List (Ref .graph)) : Respects R (FilterSet.currentGraphs refs) := by
  induction refs with
  | nil => exact .pure _
  | cons ref rest ih => exact .bind (.require _) fun _ => .bind ih fun _ => .pure _

theorem respects_renderNow {R : Workspace → Workspace → Prop} [IsPreorder Workspace R]
    (ref : Ref .filterSet) : Respects R (FilterSet.renderNow ref) :=
  .bind (.require _) fun _ => .bind (respects_currentGraphs _) fun _ => .pure _

theorem sameGraphs_expressionOf (item : GraphItem) :
    Respects Workspace.SameGraphs (Graph.expressionOf item) := by
  cases item with
  | nothing => exact .pure _
  | text s => exact .pure _
  | node ref => exact .bind (sameGraphs_render ref) fun _ => .pure _
  | graph ref => exact .bind (.require _) fun _ => .pure _
  | split ref => exact .get_bind fun w => Respects.bind (.object _) (fun _ => .pure _) w
  | filterSet ref => exact .bind (respects_renderNow ref) fun _ => .pure _
  | cls cls => exact sameGraphs_withNames _
  | other kind => exact .throw _

/-! ## Steps -/

theorem forall₂_modify {α β : Type} {R : α → β → Prop} {f : α → α} {g : β → β}
    (step : ∀ a b, R a b → R (f a) (g b)) {as : List α} {bs : List β}
    (related : List.Forall₂ R as bs) (index : Nat) :
    List.Forall₂ R (as.modify index f) (bs.modify index g) := by
  induction related generalizing index with
  | nil => simp
  | @cons a b as bs first rest ih =>
    cases index with
    | zero => exact .cons (step a b first) rest
    | succ index => exact .cons first (ih index)

theorem Store.modify_of_some {κ : ObjectKind} {α : Type} {store : Store κ α} {ref : Ref κ}
    {object : α} (present : store.get? ref = some object) (f : α → α) :
    store.put ref (f object) = store.modify ref f := by
  have found : store.cells[ref.index]? = some object := present
  simp [put, modify, List.modify_eq_set_getElem?, found]

theorem Store.modify_of_none {κ : ObjectKind} {α : Type} {store : Store κ α} {ref : Ref κ}
    (absent : store.get? ref = none) (f : α → α) : store.modify ref f = store := by
  rw [modify, List.modify_eq_self (List.getElem?_eq_none_iff.1 absent)]

theorem Store.modify_add_next {κ : ObjectKind} {α : Type} (store : Store κ α) (object : α)
    (f : α → α) : (store.add object).modify store.next f = store.add (f object) := by
  have last (cells : List α) : (cells ++ [object]).modify cells.length f = cells ++ [f object] := by
    induction cells with
    | nil => rfl
    | cons first rest ih => simp [ih]
  exact congrArg Store.mk (last store.cells)

theorem Graph.change_apply {w : Workspace} {ref : Ref .graph} {graph : Graph}
    (present : w.graphs.get? ref = some graph) (f : Graph → Graph) :
    Graph.change ref f w = .ok () { w with graphs := w.graphs.modify ref f } := by
  have read : Graph.read ref w = .ok graph w := Action.require_of_some present
  rw [Graph.change, Action.bind_of_ok read, Action.modify_apply, Store.modify_of_some present]

theorem Graph.change_absent {w : Workspace} {ref : Ref .graph}
    (absent : w.graphs.get? ref = none) (f : Graph → Graph) :
    Graph.change ref f w = .error .noObject w := by
  have read : Graph.read ref w = .error .noObject w := Action.require_of_none absent
  exact Action.bind_of_error read

theorem Graph.after_change (ref : Ref .graph) (f : Graph → Graph) (w : Workspace) :
    (Graph.change ref f).after w = { w with graphs := w.graphs.modify ref f } := by
  cases found : w.graphs.get? ref with
  | some graph => rw [Action.after_of_ok (Graph.change_apply found f)]
  | none => rw [Action.after_of_error (Graph.change_absent found f), Store.modify_of_none found]

theorem FilterSet.change_apply {w : Workspace} {ref : Ref .filterSet} {set : FilterSet}
    (present : w.sets.get? ref = some set) (f : FilterSet → FilterSet) :
    FilterSet.change ref f w = .ok () { w with sets := w.sets.modify ref f } := by
  have read : FilterSet.read ref w = .ok set w := Action.require_of_some present
  rw [FilterSet.change, Action.bind_of_ok read, Action.modify_apply, Store.modify_of_some present]

theorem FilterSet.after_change (ref : Ref .filterSet) (f : FilterSet → FilterSet)
    (w : Workspace) :
    (FilterSet.change ref f).after w = { w with sets := w.sets.modify ref f } := by
  cases found : w.sets.get? ref with
  | some set => rw [Action.after_of_ok (FilterSet.change_apply found f)]
  | none =>
    have read : FilterSet.read ref w = .error .noObject w := Action.require_of_none found
    rw [FilterSet.change, Action.after_bind_of_error read, Store.modify_of_none found]

namespace Account

variable {known : Account} {w : Workspace}

theorem Depicts.of_sameGraphs {after : Workspace} (depicts : known.Depicts w)
    (same : w.SameGraphs after) : known.Depicts after :=
  ⟨same.1 ▸ depicts.graphs, same.2 ▸ depicts.sets⟩

theorem Depicts.say (depicts : known.Depicts w) (ref : Ref .graph) {events : List GraphEvent}
    {f : Graph → Graph} (step : ∀ told graph, Graph.Draws told graph →
      Graph.Draws (told ++ events) (f graph)) :
    (known.say ref events).Depicts ((Graph.change ref f).after w) := by
  rw [Graph.after_change]
  exact ⟨forall₂_modify step depicts.graphs _, depicts.sets⟩

theorem Depicts.emptyNode (depicts : known.Depicts w) (ref : Ref .graph) :
    (known.say ref [.node ""]).Depicts w := by
  have silent (told : List GraphEvent) (graph : Graph) (draws : Graph.Draws told graph) :
      Graph.Draws (told ++ [.node ""]) (id graph) := draws.emptyNode
  have graphs := forall₂_modify silent depicts.graphs ref.index
  rw [List.modify_id] at graphs
  exact ⟨graphs, depicts.sets⟩

theorem Depicts.newGraph (depicts : known.Depicts w) (owner : Option (Ref .filterSet)) :
    (known.newGraph []).Depicts ((Graph.enter (.fresh owner)).after w) :=
  ⟨List.rel_append depicts.graphs (.cons (.fresh owner) .nil), depicts.sets⟩

theorem Depicts.newSet (depicts : known.Depicts w) (option : String) :
    known.newSet.Depicts ((FilterSet.enter (.fresh option)).after w) :=
  ⟨depicts.graphs, List.rel_append depicts.sets (.cons ⟨rfl, rfl⟩ .nil)⟩

theorem Depicts.hold (depicts : known.Depicts w) (ref : Ref .filterSet) (graph : Ref .graph) :
    (known.hold ref graph).Depicts ((FilterSet.addGraph ref graph).after w) := by
  rw [FilterSet.addGraph, FilterSet.after_change]
  refine ⟨depicts.graphs, forall₂_modify ?_ depicts.sets _⟩
  rintro told set ⟨split, graphs⟩
  exact ⟨split, congrArg (· ++ [graph]) graphs⟩

theorem Depicts.split (depicts : known.Depicts w) (ref : Ref .filterSet) (labels : List String) :
    (known.split ref labels).Depicts ((FilterSet.change ref fun set =>
      { set with split := some ⟨"", Statement.bracketed labels⟩ }).after w) := by
  rw [FilterSet.after_change]
  refine ⟨depicts.graphs, forall₂_modify ?_ depicts.sets _⟩
  rintro told set ⟨-, graphs⟩
  exact ⟨by simp, graphs⟩

@[simp] theorem say_nil (ref : Ref .graph) : known.say ref [] = known := by
  have same : (fun told : List GraphEvent => told ++ []) = id := funext List.append_nil
  simp only [Account.say, Store.modify, same, List.modify_id]

theorem say_append (ref : Ref .graph) (first second : List GraphEvent) :
    (known.say ref first).say ref second = known.say ref (first ++ second) := by
  simp only [Account.say, Store.modify, List.modify_modify_eq]
  congr 3
  funext told
  exact List.append_assoc told first second

theorem newGraph_say (events : List GraphEvent) :
    (known.newGraph []).say known.graphs.next events = known.newGraph events := by
  rw [Account.say, Account.newGraph, Store.modify_add_next]
  rfl

theorem Depicts.next (depicts : known.Depicts w) : known.graphs.next = w.graphs.next := by
  rw [Store.next, Store.next, depicts.graphs.length_eq]

theorem Depicts.say_absent (depicts : known.Depicts w) {ref : Ref .graph}
    (absent : w.graphs.get? ref = none) (events : List GraphEvent) :
    known.say ref events = known := by
  have missing : known.graphs.get? ref = none := by
    rw [Store.get?, List.getElem?_eq_none_iff] at absent ⊢
    rwa [depicts.graphs.length_eq]
  rw [Account.say, Store.modify_of_none missing]

end Account

/-! ## What calls do -/

theorem wrap_eq (label : Value) (tokens : Tokens) :
    wrap label tokens =
      (do return (← normalize label).elim "" fun text => "[" ++ text ++ "]"
        : Action Tokens String) tokens := by
  simp only [wrap, bind, EStateM.bind]
  cases normalize label tokens with
  | error failure t => rfl
  | ok text t => cases text <;> rfl

theorem wrapAll_cons (label : Value) (rest : List Value) (tokens : Tokens) :
    wrapAll (label :: rest) tokens =
      (do let first ← wrap label
          let others ← wrapAll rest
          return first ++ others : Action Tokens String) tokens := by
  cases label with
  | null =>
    simp only [wrapAll, bind, EStateM.bind, wrap_eq, normalize, pure, EStateM.pure, Option.elim]
    cases wrapAll rest tokens <;> simp
  | _ => rfl

/-- Wrapping labels is looking up their texts and putting those in brackets. -/
theorem wrapAll_eq (labels : List Value) (tokens : Tokens) :
    wrapAll labels tokens =
      (do return Statement.bracketed (← labelTexts labels) : Action Tokens String) tokens := by
  induction labels generalizing tokens with
  | nil => rfl
  | cons label rest ih =>
    simp only [wrapAll_cons, labelTexts, normalizeAll, bind, EStateM.bind, wrap_eq]
    cases normalize label tokens with
    | error failure t => rfl
    | ok text t =>
      simp only [pure, EStateM.pure, ih t, labelTexts, bind, EStateM.bind]
      cases normalizeAll rest t with
      | error failure u => rfl
      | ok texts u => cases text <;> simp [Statement.bracketed]

theorem withTokens_of_ok {α : Type} {action : Action Tokens α} {w : Workspace} {a : α}
    {tokens : Tokens} (run : action w.tokens = .ok a tokens) :
    Workspace.withTokens action w = .ok a { w with tokens } := Action.within_of_ok run

theorem withTokens_of_error {α : Type} {action : Action Tokens α} {w : Workspace}
    {tokens : Tokens} {failure : Failure} (run : action w.tokens = .error failure tokens) :
    Workspace.withTokens action w = .error failure { w with tokens } :=
  Action.within_of_error run

/-- Splitting a set is looking up the texts of the labels and splitting to those in brackets. -/
theorem FilterSet.setSplit_apply (ref : Ref .filterSet) {labels : List Value} (some : labels ≠ [])
    (w : Workspace) :
    FilterSet.setSplit ref labels w =
      (do let texts ← Workspace.withTokens (labelTexts labels)
          FilterSet.change ref ({ · with split := .some ⟨"", Statement.bracketed texts⟩ })
        : Work Unit) w := by
  have wrapped := wrapAll_eq labels w.tokens
  have started : FilterSet.setSplit ref labels = (do
      let split ← Workspace.withTokens (Split.toLabels ⟨"", ""⟩ labels)
      FilterSet.change ref ({ · with split := .some split })) := by
    simp only [FilterSet.setSplit, List.isEmpty_iff, some, if_false]
  rw [started]
  cases looked : labelTexts labels w.tokens with
  | error failure tokens =>
    have made : Split.toLabels ⟨"", ""⟩ labels w.tokens = .error failure tokens :=
      Action.bind_of_error (wrapped.trans (Action.bind_of_error looked))
    rw [Action.bind_of_error (withTokens_of_error made),
      Action.bind_of_error (withTokens_of_error looked)]
  | ok texts tokens =>
    have made : Split.toLabels ⟨"", ""⟩ labels w.tokens =
        .ok ⟨"", Statement.bracketed texts⟩ tokens :=
      Action.bind_of_ok (wrapped.trans (Action.bind_of_ok looked))
    rw [Action.bind_of_ok (withTokens_of_ok made), Action.bind_of_ok (withTokens_of_ok looked)]

namespace Account

variable {known : Account} {w : Workspace}

theorem Depicts.withTokens (depicts : known.Depicts w) (tokens : Tokens) :
    known.Depicts { w with tokens } :=
  depicts.of_sameGraphs ⟨rfl, rfl⟩

theorem Depicts.setInputs (depicts : known.Depicts w) (ref : Ref .graph) (labels : List Value) :
    (known.say ref (GraphEvent.ofInputs labels w)).Depicts
      ((Graph.setInputs ref labels).after w) := by
  have wrapped := wrapAll_eq labels w.tokens
  cases looked : labelTexts labels w.tokens with
  | error failure tokens =>
    rw [Action.bind_of_error looked] at wrapped
    rw [GraphEvent.ofInputs, looked, Graph.setInputs,
      Action.after_bind_of_error (withTokens_of_error wrapped)]
    exact (known.say_nil ref).symm ▸ depicts.withTokens tokens
  | ok texts tokens =>
    rw [Action.bind_of_ok looked] at wrapped
    rw [GraphEvent.ofInputs, looked, Graph.setInputs,
      Action.after_bind_of_ok (withTokens_of_ok wrapped)]
    exact (depicts.withTokens tokens).say ref fun told graph draws => draws.inputs texts

theorem Depicts.setOutput (depicts : known.Depicts w) (ref : Ref .graph) (label : Value) :
    (known.say ref (GraphEvent.ofLabel label w)).Depicts
      ((Graph.setOutput ref label).after w) := by
  by_cases silent : label = .null ∨ label = .text ""
  · rcases silent with rfl | rfl <;> exact (known.say_nil ref).symm ▸ depicts
  · obtain ⟨given, nonempty⟩ := not_or.1 silent
    have wrapped := wrap_eq label w.tokens
    rw [GraphEvent.ofLabel.eq_3 _ _ given nonempty, Graph.setOutput.eq_3 _ _ given nonempty]
    cases looked : normalize label w.tokens with
    | error failure tokens =>
      rw [Action.bind_of_error looked] at wrapped
      rw [Action.after_bind_of_error (withTokens_of_error wrapped)]
      exact (known.say_nil ref).symm ▸ depicts.withTokens tokens
    | ok text tokens =>
      rw [Action.bind_of_ok looked] at wrapped
      rw [Action.after_bind_of_ok (withTokens_of_ok wrapped)]
      cases text with
      | none => exact absurd (normalize_eq_none looked) given
      | some text =>
        exact (depicts.withTokens tokens).say ref fun told graph draws => draws.output text

/-- An item adds its expression, if it can be had. -/
theorem Depicts.addItem (depicts : known.Depicts w) (ref : Ref .graph) (item : GraphItem) :
    (known.say ref (GraphEvent.ofItems ref [item] w)).Depicts
      ((Graph.addItems ref [item]).after w) := by
  have same := sameGraphs_expressionOf item w
  cases had : Graph.expressionOf item w with
  | error failure mid =>
    rw [Action.after_of_error had] at same
    rw [GraphEvent.ofItems, expressions, had, Graph.addItems, Action.after_bind_of_error had]
    exact (known.say_nil ref).symm ▸ depicts.of_sameGraphs same
  | ok text mid =>
    rw [Action.after_of_ok had] at same
    rw [GraphEvent.ofItems, expressions, had, Graph.addItems, Action.after_bind_of_ok had]
    have kept := depicts.of_sameGraphs same
    by_cases silent : text.getD "" = ""
    · simp only [silent, ne_eq, not_true_eq_false, if_false]
      exact kept.emptyNode ref
    · simp only [silent, ne_eq, not_false_eq_true, if_true]
      have change := kept.say ref fun told graph draws => draws.node silent
      exact (Action.after_bind_pure _ _ _).symm ▸ change

/-- An item whose expression can be had is only not added where there is no graph. -/
theorem addItem_error {ref : Ref .graph} {item : GraphItem} {text : Option String}
    {mid after : Workspace} {failure : Failure} (had : Graph.expressionOf item w = .ok text mid)
    (failed : Graph.addItems ref [item] w = .error failure after) :
    after.graphs.get? ref = none := by
  rw [Graph.addItems, Action.bind_of_ok had] at failed
  by_cases silent : text.getD "" = ""
  · simp only [silent, ne_eq, not_true_eq_false, if_false] at failed
    cases failed
  · simp only [silent, ne_eq, not_false_eq_true, if_true] at failed
    cases found : mid.graphs.get? ref with
    | some graph =>
      rw [Action.bind_of_ok (Graph.change_apply found _)] at failed
      cases failed
    | none =>
      rw [Action.bind_of_error (Graph.change_absent found _)] at failed
      cases failed
      exact found

theorem addItems_cons (ref : Ref .graph) (item : GraphItem) (rest : List GraphItem) :
    Graph.addItems ref (item :: rest) =
      (do Graph.addItems ref [item]; Graph.addItems ref rest) := by
  simp only [Graph.addItems, bind_assoc]
  congr 1
  funext text
  by_cases silent : text.getD "" = ""
  · simp only [silent, ne_eq, not_true_eq_false, if_false, pure_bind]
  · simp only [silent, ne_eq, not_false_eq_true, if_true, bind_assoc, pure_bind]

theorem Depicts.addItems (depicts : known.Depicts w) (ref : Ref .graph) (items : List GraphItem) :
    (known.say ref (GraphEvent.ofItems ref items w)).Depicts
      ((Graph.addItems ref items).after w) := by
  induction items generalizing known w with
  | nil =>
    rw [GraphEvent.ofItems, expressions, List.map_nil, say_nil]
    exact depicts
  | cons item rest ih =>
    have single := depicts.addItem ref item
    cases had : Graph.expressionOf item w with
    | error failure mid =>
      simp only [GraphEvent.ofItems, expressions, had, Graph.addItems,
        Action.after_bind_of_error had] at single ⊢
      exact single
    | ok text mid =>
      simp only [GraphEvent.ofItems, expressions, had, List.map_cons, List.map_nil] at single ⊢
      rw [addItems_cons ref item rest, ← List.singleton_append, ← say_append]
      -- Without the graph nothing is added, but neither has the account a place to say it.
      cases added : Graph.addItems ref [item] w with
      | ok _ next =>
        rw [Action.after_bind_of_ok added]
        rw [Action.after_of_ok added] at single ⊢
        exact ih single
      | error failure next =>
        rw [Action.after_bind_of_error added]
        rw [Action.after_of_error added] at single
        rw [single.say_absent (addItem_error had added)]
        exact single

theorem Depicts.ofInputs (depicts : known.Depicts w) (owner : Option (Ref .filterSet))
    (labels : List Value) :
    (known.newGraph (GraphEvent.ofInputs labels w)).Depicts
      ((Graph.ofInputs owner labels).after w) := by
  have entered : Graph.enter (.fresh owner) w =
    .ok w.graphs.next ((Graph.enter (.fresh owner)).after w) := rfl
  rw [Graph.ofInputs, Action.after_bind_of_ok entered, Action.after_bind_pure, ← newGraph_say,
    depicts.next]
  exact (depicts.newGraph owner).setInputs _ labels

theorem Depicts.ofItems (depicts : known.Depicts w) (owner : Option (Ref .filterSet))
    (items : List GraphItem) :
    (known.newGraph (GraphCall.itemsSaid owner items w)).Depicts
      ((Graph.ofItems owner items).after w) := by
  have entered : Graph.enter (.fresh owner) w =
    .ok w.graphs.next ((Graph.enter (.fresh owner)).after w) := rfl
  rw [Graph.ofItems, Action.after_bind_of_ok entered, Action.after_bind_pure, ← newGraph_say,
    depicts.next]
  exact (depicts.newGraph owner).addItems _ items

theorem Depicts.ofOption (depicts : known.Depicts w) (option : Value) :
    (GraphCall.upon (FilterSet.ofOption option) w (fun _ => Account.newSet) known).Depicts
      ((FilterSet.ofOption option).after w) := by
  cases option with
  | text option => exact depicts.newSet option
  | _ => exact depicts

theorem Depicts.setSplit (depicts : known.Depicts w) (ref : Ref .filterSet)
    {labels : List Value} (some : labels ≠ []) :
    (GraphCall.upon (Workspace.withTokens (labelTexts labels)) w
      (fun texts known => known.split ref texts) known).Depicts
        ((FilterSet.setSplit ref labels).after w) := by
  rw [Action.after_congr (FilterSet.setSplit_apply ref some w)]
  cases looked : labelTexts labels w.tokens with
  | error failure tokens =>
    have failed := withTokens_of_error looked
    rw [GraphCall.upon, failed, Action.after_bind_of_error failed]
    exact depicts.withTokens tokens
  | ok texts tokens =>
    have had := withTokens_of_ok looked
    rw [GraphCall.upon, had, Action.after_bind_of_ok had]
    exact (depicts.withTokens tokens).split ref texts

/-- A set holds a graph that could be made. -/
theorem depicts_upon {made : Work (Ref .graph)} (depicts : known.Depicts (made.after w))
    (ref : Ref .filterSet) :
    (GraphCall.upon made w (fun made known => known.hold ref made) known).Depicts
      ((do FilterSet.addGraph ref (← made)).after w) := by
  cases run : made w with
  | ok graph next =>
    rw [Action.after_of_ok run] at depicts
    rw [GraphCall.upon, run, Action.after_bind_of_ok run]
    exact depicts.hold ref graph
  | error failure next =>
    rw [Action.after_of_error run] at depicts
    rw [GraphCall.upon, run, Action.after_bind_of_error run]
    exact depicts

end Account

namespace GraphCall

/-- What one call does to graphs and sets is what it says. -/
theorem depicts_perform {known : Account} {w : Workspace} (depicts : known.Depicts w)
    (call : GraphCall) : (call.account w known).Depicts (call.perform.after w) := by
  cases call with
  | graph owner => exact depicts.newGraph owner
  | stream labels =>
    rw [perform, Action.after_bind_pure]
    exact depicts.ofInputs none labels
  | append items =>
    rw [perform, Action.after_bind_pure]
    exact depicts.ofItems none items
  | inputs ref labels => exact depicts.setInputs ref labels
  | add ref items => exact depicts.addItems ref items
  | output ref label => exact depicts.setOutput ref label
  | set option =>
    rw [perform, Action.after_bind_pure]
    exact depicts.ofOption option
  | define option =>
    rw [perform, Action.after_bind_pure, account, FilterSet.define]
    split
    · exact depicts.ofOption option
    · exact depicts
  | split ref labels =>
    cases labels with
    | nil => exact depicts
    | cons label rest => exact depicts.setSplit ref (List.cons_ne_nil label rest)
  | hold ref items =>
    by_cases one : ∃ graph, items = [.graph graph]
    · obtain ⟨graph, rfl⟩ := one
      exact depicts.hold ref graph
    by_cases missing : items = [.nothing]
    · subst missing
      exact depicts
    -- Any other items make a new graph, which the set holds once it is complete.
    have held := Account.depicts_upon (depicts.ofItems none items) ref
    have other (graph : Ref .graph) : items = [.graph graph] → False := fun same =>
      one ⟨graph, same⟩
    rw [perform, account.eq_13 _ _ _ _ other missing, FilterSet.addItems.eq_3 _ _ other missing]
    exact held
  | startFrom ref labels =>
    have held := Account.depicts_upon (depicts.ofInputs (some ref) labels) ref
    rw [perform, Action.after_bind_pure, FilterSet.startFrom]
    rwa [Action.after_bind_congr fun graph w => Action.after_bind_pure _ _ w]
  | start ref items =>
    have held := Account.depicts_upon (depicts.ofItems (some ref) items) ref
    rw [perform, Action.after_bind_pure, FilterSet.start]
    rwa [Action.after_bind_congr fun graph w => Action.after_bind_pure _ _ w]
  | elsewhere action apart => exact depicts.of_sameGraphs (apart w)

/-- Whatever calls are made, graphs and sets are drawn as the calls told. -/
theorem depicts_run {known : Account} {w : Workspace} (depicts : known.Depicts w)
    (calls : List GraphCall) : (accountOf calls w known).Depicts (afterCalls calls w) := by
  induction calls generalizing known w with
  | nil => exact depicts
  | cons call rest ih => exact ih (depicts_perform depicts call)

end GraphCall

/-! ## Reading back -/

theorem forall₂_getElem? {α β : Type} {R : α → β → Prop} {as : List α} {bs : List β}
    (related : List.Forall₂ R as bs) {index : Nat} {a : α} (here : as[index]? = some a) :
    ∃ b, bs[index]? = some b ∧ R a b := by
  induction related generalizing index with
  | nil => cases here
  | @cons first other as bs step rest ih =>
    cases index with
    | zero =>
      cases here
      exact ⟨other, rfl, step⟩
    | succ index => exact ih here

namespace Account

variable {known : Account} {w : Workspace}

/-- A graph of which an expression is known can be read, and is drawn as told. -/
theorem Depicts.read (depicts : known.Depicts w) {ref : Ref .graph}
    (complete : (known.statement ref).nodes ≠ []) :
    ∃ graph, Graph.read ref w = .ok graph w ∧ graph.render = (known.statement ref).render := by
  cases told : known.graphs.get? ref with
  | none => exact absurd (by simp [statement, told, Statement.ofEvents]) complete
  | some events =>
    obtain ⟨graph, present, draws⟩ := forall₂_getElem? depicts.graphs told
    have found : w.graphs.get? ref = some graph := present
    refine ⟨graph, ?_, ?_⟩
    · exact Action.require_of_some found
    · rw [draws.render, statement, told]
      rfl

theorem Depicts.currentGraphs (depicts : known.Depicts w) {refs : List (Ref .graph)}
    (complete : ∀ ref ∈ refs, (known.statement ref).nodes ≠ []) :
    ∃ graphs, FilterSet.currentGraphs refs w = .ok graphs w ∧
      graphs.map Graph.render = (refs.map known.statement).map Statement.render := by
  induction refs with
  | nil => exact ⟨[], rfl, rfl⟩
  | cons ref rest ih =>
    obtain ⟨first, others⟩ := List.forall_mem_cons.1 complete
    obtain ⟨graph, read, same⟩ := depicts.read first
    obtain ⟨graphs, current, sames⟩ := ih others
    refine ⟨graph :: graphs, ?_, by simp [same, sames]⟩
    rw [FilterSet.currentGraphs, Action.bind_of_ok read, Action.bind_of_ok current]
    rfl

/-- The text of a set is its statements between semicolons. -/
theorem Depicts.renderNow (depicts : known.Depicts w) {ref : Ref .filterSet} {set : FilterSet}
    {told : SetAccount} (present : w.sets.get? ref = some set) (draws : FilterSet.Draws told set)
    (some : set.graphs ≠ []) (complete : ∀ ref ∈ told.graphs, (known.statement ref).nodes ≠ []) :
    FilterSet.renderNow ref w =
      .ok (";".intercalate ((known.statements told).map Statement.render)) w := by
  obtain ⟨split, graphs⟩ := draws
  rw [graphs] at some
  obtain ⟨current, currently, texts⟩ := depicts.currentGraphs complete
  have read : FilterSet.read ref w = .ok set w := Action.require_of_some present
  have nonempty : current.isEmpty = false := by
    have := congrArg List.length texts
    simp only [List.length_map] at this
    rw [List.isEmpty_eq_false_iff, ← List.length_pos_iff, this]
    exact List.length_pos_iff.2 some
  have statements : set.statements current = (known.statements told).map Statement.render := by
    rw [FilterSet.statements, Account.statements, List.map_append, texts, split]
    cases told.splits.getLast? with
    | none => rfl
    | some labels => simp [Statement.ofSplit, Split.render, Statement.render, Statement.bracketed]
  rw [FilterSet.renderNow, Action.bind_of_ok read, graphs, Action.bind_of_ok currently,
    FilterSet.render, nonempty, statements]
  rfl

end Account

namespace GraphCall

/-- **The text of a filter set is unambiguous.** Whatever calls have made graphs and sets, those
that fail included: a set that holds a graph, whose graphs all have an expression and whose labels
and expressions contain no mark of the filter language, is rendered to a text that the grammar
reads back as the statements that the calls told, in order. -/
theorem readAll_renderNow {w : Workspace} (graphs : w.graphs = .empty) (sets : w.sets = .empty)
    (calls : List GraphCall) {ref : Ref .filterSet} {set : FilterSet}
    (present : (afterCalls calls w).sets.get? ref = some set) (some : set.graphs ≠ []) :
    ∃ told, (accountOf calls w .empty).sets.get? ref = .some told ∧ told.graphs = set.graphs ∧
      ((∀ graph ∈ told.graphs, ((accountOf calls w .empty).statement graph).nodes ≠ []) →
        (∀ statement ∈ (accountOf calls w .empty).statements told, statement.Plain) →
        ∃ text, FilterSet.renderNow ref (afterCalls calls w) = .ok text (afterCalls calls w) ∧
          Statement.readAll text = .some ((accountOf calls w .empty).statements told)) := by
  have start : Account.empty.Depicts w := ⟨by rw [graphs]; exact .nil, by rw [sets]; exact .nil⟩
  have depicts := depicts_run start calls
  obtain ⟨told, known, draws⟩ := forall₂_getElem? depicts.sets.flip present
  refine ⟨told, known, draws.2.symm, fun complete plain => ?_⟩
  refine ⟨_, depicts.renderNow present draws some complete,
    Statement.readAll_intercalate ?_ plain ?_⟩
  · rw [draws.2] at some
    simp [Account.statements, some]
  · intro statement mem
    rcases List.mem_append.1 mem with split | listed
    · obtain ⟨labels, -, rfl⟩ := Option.map_eq_some_iff.1 (Option.mem_toList.1 split)
      exact ⟨by simp [Statement.ofSplit], by simp [Statement.ofSplit, Split.filterName]⟩
    · obtain ⟨graph, held, rfl⟩ := List.mem_map.1 listed
      exact ⟨complete graph held, Statement.ofEvents_nodes _⟩

/-- Calls that make a set of a split and two graphs, one of them made beforehand. -/
def watermark : List GraphCall :=
  [.set (.text "filter_complex"), .split ⟨0⟩ [.text "in", .null, .text "alt"],
    .append [.text "movie=logo.png"], .output ⟨0⟩ (.text "wm"), .hold ⟨0⟩ [.graph ⟨0⟩],
    .startFrom ⟨0⟩ [.text "in", .text "wm"],
    .add ⟨1⟩ [.text "overlay=10", .nothing, .text "fps=25"], .output ⟨1⟩ (.text "out")]

theorem readAll_watermark :
    ∃ text, FilterSet.renderNow ⟨0⟩ (afterCalls watermark .initial) =
        .ok text (afterCalls watermark .initial) ∧
      Statement.readAll text = some [⟨[], ["split"], ["in", "alt"]⟩,
        ⟨[], ["movie=logo.png"], ["wm"]⟩, ⟨["in", "wm"], ["overlay=10", "fps=25"], ["out"]⟩] := by
  have present : (afterCalls watermark .initial).sets.get? ⟨0⟩ =
    some ⟨"filter_complex", some ⟨"", "[in][alt]"⟩, [⟨0⟩, ⟨1⟩]⟩ := rfl
  obtain ⟨told, known, -, reads⟩ := readAll_renderNow rfl rfl watermark present (by simp)
  have computed : (accountOf watermark .initial .empty).sets.get? ⟨0⟩ =
    some ⟨[["in", "alt"]], [⟨0⟩, ⟨1⟩]⟩ := rfl
  cases computed.symm.trans known
  exact reads (by decide) (by decide)

end GraphCall

end MediaCommand
