import EntityQuery.Body.Recorder
import Mathlib.Data.List.Nodup
import Mathlib.Logic.Relation

/-!
# Recorded bodies

Bodies are recorded at a workbench: any number of them are open, one within another, and expressions
that have been made once may be used in any of them, also after the body that they come from is
finished. A path is given by the root or by a declared join of an open body. So a path from a join
never outruns the joins of its scope, the parent of a join is declared before it, and a nested query
is finished before it is used.
-/

namespace EntityQuery

/-! ## What bodies mention -/

/-- A path, or a body with its joins. -/
inductive Mention where
  | path (p : Path)
  | body (b : Body)

mutual

/-- A body, the bodies of the queries nested in it, and all paths in them. -/
def Body.mentions (b : Body) : List Mention :=
  match b with
  | ⟨scope, entity, statements, joins, selection, orderBy, distinct, assignments⟩ =>
    .body ⟨scope, entity, statements, joins, selection, orderBy, distinct, assignments⟩ ::
      (statementsMentions statements ++ (selectionMentions selection ++
        (orderByMentions orderBy ++ assignmentsMentions assignments)))
termination_by structural b

def statementsMentions (xs : List (Statement Clause)) : List Mention :=
  match xs with
  | [] => []
  | x :: xs => statementMentions x ++ statementsMentions xs
termination_by structural xs

def statementMentions (x : Statement Clause) : List Mention :=
  match x with
  | .or => []
  | .clause clause => clause.mentions
termination_by structural x

def selectionMentions (selection : Option (List Expr)) : List Mention :=
  match selection with
  | none => []
  | some es => exprsMentions es
termination_by structural selection

def exprsMentions (es : List Expr) : List Mention :=
  match es with
  | [] => []
  | e :: es => e.mentions ++ exprsMentions es
termination_by structural es

def orderByMentions (ts : List OrderTerm) : List Mention :=
  match ts with
  | [] => []
  | t :: ts => t.mentions ++ orderByMentions ts
termination_by structural ts

def OrderTerm.mentions (t : OrderTerm) : List Mention :=
  match t with
  | ⟨expr, _⟩ => expr.mentions
termination_by structural t

def assignmentsMentions (ts : List SetTerm) : List Mention :=
  match ts with
  | [] => []
  | t :: ts => t.mentions ++ assignmentsMentions ts
termination_by structural ts

def SetTerm.mentions (t : SetTerm) : List Mention :=
  match t with
  | ⟨_, expr⟩ => expr.mentions
termination_by structural t

def Clause.mentions (clause : Clause) : List Mention :=
  match clause with
  | .compare left _ right => left.mentions ++ right.mentions
  | .like operand _ _ => operand.mentions
  | .inList operand _ _ => operand.mentions
  | .inSubquery operand subquery _ => operand.mentions ++ subquery.mentions
  | .isNull operand _ => operand.mentions
  | .isEmpty collection _ => [.path collection]
  | .isMember value collection _ => value.mentions ++ [.path collection]
termination_by structural clause

/-- The paths in an expression, and the bodies of the queries nested in it. -/
def Expr.mentions (e : Expr) : List Mention :=
  match e with
  | .path p => [.path p]
  | .literal _ => []
  | .parameter _ _ => []
  | .subquery body returns => body.mentions ++ returns.mentions
  | .aggregate _ p => (p.map Mention.path).toList
termination_by structural e

end

/-- What the parts of a body mention. -/
def Body.contents (b : Body) : List Mention :=
  statementsMentions b.statements ++ (selectionMentions b.selection ++
    (orderByMentions b.orderBy ++ assignmentsMentions b.assignments))

theorem Body.mentions_eq (b : Body) : b.mentions = .body b :: b.contents := by
  cases b
  rfl

theorem Body.mem_contents {b : Body} {x : Mention} : x ∈ b.contents ↔
    x ∈ statementsMentions b.statements ∨ x ∈ selectionMentions b.selection ∨
      x ∈ orderByMentions b.orderBy ∨ x ∈ assignmentsMentions b.assignments := by
  rw [contents, List.mem_append, List.mem_append, List.mem_append]

theorem statementsMentions_eq (xs : List (Statement Clause)) :
    statementsMentions xs = xs.flatMap statementMentions := by
  induction xs with
  | nil => rfl
  | cons x xs ih => rw [statementsMentions, ih, List.flatMap_cons]

theorem exprsMentions_eq (es : List Expr) : exprsMentions es = es.flatMap Expr.mentions := by
  induction es with
  | nil => rfl
  | cons e es ih => rw [exprsMentions, ih, List.flatMap_cons]

theorem orderByMentions_eq (ts : List OrderTerm) :
    orderByMentions ts = ts.flatMap OrderTerm.mentions := by
  induction ts with
  | nil => rfl
  | cons t ts ih => rw [orderByMentions, ih, List.flatMap_cons]

theorem mem_assignmentsMentions_assignTerm {field : String} {e : Expr} {ts : List SetTerm}
    {x : Mention} (h : x ∈ assignmentsMentions (Body.assignTerm field e ts)) :
    x ∈ assignmentsMentions ts ∨ x ∈ e.mentions := by
  induction ts with
  | nil =>
    rw [Body.assignTerm, assignmentsMentions, assignmentsMentions, List.append_nil] at h
    exact .inr h
  | cons t ts ih =>
    unfold Body.assignTerm at h
    split at h
    · rcases List.mem_append.mp h with h | h
      · exact .inr h
      · exact .inl (List.mem_append_right _ h)
    · rcases List.mem_append.mp h with h | h
      · exact .inl (List.mem_append_left _ h)
      · exact (ih h).imp_left (List.mem_append_right _)

/-! ## Declared joins -/

/-- A body declares as many joins as are counted for its scope, each behind its parent. -/
structure Body.Counted (count : Nat → Nat) (b : Body) : Prop where
  length : b.joins.length = count b.scope
  parents : ∀ (k : Nat) (d : JoinDeclaration) (i : Nat),
    b.joins[k]? = some d → d.parent = .join i → i < k

/-- A path starts at one of the joins that are counted for its scope, unless at the root. -/
def Path.Counted (count : Nat → Nat) (p : Path) : Prop :=
  ∀ i, p.origin = .join i → i < count p.scope

def Mention.Counted (count : Nat → Nat) : Mention → Prop
  | path p => p.Counted count
  | body b => b.Counted count

/-- All joins that paths start at, in a body and in the queries nested in it, are declared by the
bodies that they belong to. -/
def Body.Declared (b : Body) : Prop :=
  ∃ count, ∀ x ∈ b.mentions, x.Counted count

/-! ## The workbench -/

namespace Recording

/-- The scopes of the bodies under recording. -/
def scopes (s : Recording) : List Nat :=
  s.bodies.map Body.scope

/-- Open a body within those under recording. -/
def begin (s : Recording) (entity : String) : Recording :=
  ⟨s.nextScope + 1, .empty s.nextScope entity :: s.bodies⟩

/-- A path is given by the root or by a declared join of a body under recording. -/
def Gives (s : Recording) (p : Path) : Prop :=
  ∃ b ∈ s.bodies, b.scope = p.scope ∧ ∀ i, p.origin = .join i → i < b.joins.length

theorem gives_root {s : Recording} {b : Body} (hb : b ∈ s.bodies) (entity : String)
    (hops : List String) : s.Gives ⟨b.scope, entity, .root, hops⟩ := by
  refine ⟨b, hb, rfl, ?_⟩
  rintro i ⟨⟩

theorem gives_join {s : Recording} {b : Body} (hb : b ∈ s.bodies) {i : Nat}
    (hi : i < b.joins.length) (entity : String) (hops : List String) :
    s.Gives ⟨b.scope, entity, .join i, hops⟩ := by
  refine ⟨b, hb, rfl, ?_⟩
  rintro _ ⟨⟩
  exact hi

theorem Gives.scope_mem {s : Recording} {p : Path} (h : s.Gives p) : p.scope ∈ s.scopes := by
  obtain ⟨b, hb, hscope, -⟩ := h
  exact List.mem_map.mpr ⟨b, hb, hscope⟩

/-- An expression is made of a path that is given, or of none. -/
inductive Makes (s : Recording) : Expr → Prop
  | path {p : Path} : s.Gives p → Makes s (.path p)
  | literal (v : Value) : Makes s (.literal v)
  | parameter (name : String) (v : Value) : Makes s (.parameter name v)
  | count (f : Aggregate) : Makes s (.aggregate f none)
  | aggregate (f : Aggregate) {p : Path} : s.Gives p → Makes s (.aggregate f (some p))

end Recording

/-- The bodies under recording, the expressions made so far, and the bodies that are finished. -/
structure Workbench where
  recording : Recording
  exprs : List Expr
  finished : List Body

namespace Workbench

/-- Nothing has been recorded yet. -/
def start : Workbench :=
  ⟨⟨1, []⟩, [], []⟩

/-- A clause is made of expressions at hand, and of paths that are given. -/
inductive Makes (w : Workbench) : Clause → Prop
  | compare {left right : Expr} (op : Comparison) :
      left ∈ w.exprs → right ∈ w.exprs → Makes w (.compare left op right)
  | like {operand : Expr} (pattern : String) (negated : Bool) :
      operand ∈ w.exprs → Makes w (.like operand pattern negated)
  | inList {operand : Expr} (values : List Value) (negated : Bool) :
      operand ∈ w.exprs → Makes w (.inList operand values negated)
  | inSubquery {operand subquery : Expr} (negated : Bool) :
      operand ∈ w.exprs → subquery ∈ w.exprs → Makes w (.inSubquery operand subquery negated)
  | isNull {operand : Expr} (negated : Bool) :
      operand ∈ w.exprs → Makes w (.isNull operand negated)
  | isEmpty {collection : Path} (negated : Bool) :
      w.recording.Gives collection → Makes w (.isEmpty collection negated)
  | isMember {value : Expr} {collection : Path} (negated : Bool) :
      value ∈ w.exprs → w.recording.Gives collection → Makes w (.isMember value collection negated)

/-- What may be recorded, of expressions at hand, on the body that a path belongs to. -/
inductive Permits (w : Workbench) (p : Path) : Recorder Unit → Prop
  | clause {c : Clause} : w.Makes c → Permits w p (Recorder.clause p c)
  | or : Permits w p (Recorder.or p)
  | select {items : List Expr} : (∀ e ∈ items, e ∈ w.exprs) → Permits w p (Recorder.select p items)
  | orderBy {e : Expr} (direction : Direction) :
      e ∈ w.exprs → Permits w p (Recorder.orderBy p e direction)
  | distinct : Permits w p (Recorder.distinct p)
  | assign (field : String) {e : Expr} : e ∈ w.exprs → Permits w p (Recorder.assign p field e)

/-- A step at the workbench. The body that was opened last is the first to be finished, as a nested
query or on its own; then its root and its joins give no more paths. -/
inductive Step : Workbench → Workbench → Prop
  | begin (w : Workbench) (entity : String) :
      Step w { w with recording := w.recording.begin entity }
  | make {w : Workbench} {e : Expr} :
      w.recording.Makes e → Step w { w with exprs := e :: w.exprs }
  | record {w : Workbench} {p : Path} {step : Recorder Unit} :
      w.recording.Gives p → w.Permits p step →
      Step w { w with recording := (step.run w.recording).2 }
  | join {w : Workbench} {parent : Path} (relation entity : String) (many : Bool) (kind : JoinKind) :
      w.recording.Gives parent →
      Step w { w with
        recording := ((Recorder.join parent relation entity many kind).run w.recording).2 }
  | subquery {w : Workbench} {b : Body} {bodies : List Body} {returns : Expr} :
      w.recording.bodies = b :: bodies → returns ∈ w.exprs →
      Step w { w with
        recording := ⟨w.recording.nextScope, bodies⟩
        exprs := .subquery b returns :: w.exprs }
  | finish {w : Workbench} {b : Body} {bodies : List Body} :
      w.recording.bodies = b :: bodies →
      Step w { w with
        recording := ⟨w.recording.nextScope, bodies⟩
        finished := b :: w.finished }

/-- A workbench comes about by steps. -/
def Reachable : Workbench → Prop :=
  Relation.ReflTransGen Step start

end Workbench

/-! ## What is recorded is declared -/

def Mention.scope : Mention → Nat
  | path p => p.scope
  | body b => b.scope

/-- A mention does not become wrong by what is recorded later: its scope is in use, and no body that it
mentions is still open. -/
structure Mention.Settled (count : Nat → Nat) (s : Recording) (x : Mention) : Prop where
  used : x.scope < s.nextScope
  closed : ∀ b, x = .body b → b.scope ∉ s.scopes
  counted : x.Counted count

/-- Counts may grow for scopes that are open, and scopes may be opened anew or closed. -/
theorem Mention.Settled.mono {count count' : Nat → Nat} {s s' : Recording} {x : Mention}
    (h : x.Settled count s) (hnext : s.nextScope ≤ s'.nextScope)
    (hscopes : ∀ scope ∈ s'.scopes, scope ∈ s.scopes ∨ s.nextScope ≤ scope)
    (hle : ∀ scope < s.nextScope, count scope ≤ count' scope)
    (heq : ∀ scope < s.nextScope, scope ∉ s.scopes → count' scope = count scope) :
    x.Settled count' s' where
  used := Nat.lt_of_lt_of_le h.used hnext
  closed := by
    -- A scope that is open later was open before, or is a later one than that of the body.
    rintro b rfl hmem
    rcases hscopes b.scope hmem with hmem | hlater
    · exact h.closed b rfl hmem
    · exact Nat.not_le_of_lt h.used hlater
  counted := by
    cases x with
    | path p =>
      intro i hi
      exact Nat.lt_of_lt_of_le (h.counted i hi) (hle p.scope h.used)
    | body b =>
      refine ⟨?_, Body.Counted.parents h.counted⟩
      rw [heq b.scope h.used (h.closed b rfl)]
      exact Body.Counted.length h.counted

section Modifying

variable {scope : Nat} {f : Body → Body}

theorem Recorder.scopes_modifyBody (s : Recording) (scope : Nat)
    (hscope : ∀ b, (f b).scope = b.scope) :
    ((modifyBody scope f).run s).2.scopes = s.scopes := by
  refine (List.map_map ..).trans (List.map_congr_left fun b _ => ?_)
  rw [Function.comp_apply]
  split
  · exact hscope b
  · rfl

theorem Recorder.mem_modifyBody {s : Recording} {b : Body}
    (h : b ∈ ((modifyBody scope f).run s).2.bodies) :
    (b ∈ s.bodies ∧ b.scope ≠ scope) ∨ ∃ b₀ ∈ s.bodies, b₀.scope = scope ∧ b = f b₀ := by
  obtain ⟨b₀, hb₀, rfl⟩ := List.mem_map.mp h
  split
  · rename_i hscope
    exact .inr ⟨b₀, hb₀, hscope, rfl⟩
  · rename_i hscope
    exact .inl ⟨hb₀, hscope⟩

end Modifying

namespace Workbench

/-- Open bodies have scopes of their own, and declare the joins counted for them; all that is mentioned
anywhere is settled. -/
structure Sound (count : Nat → Nat) (w : Workbench) : Prop where
  distinct : w.recording.scopes.Nodup
  used : ∀ b ∈ w.recording.bodies, b.scope < w.recording.nextScope
  counted : ∀ b ∈ w.recording.bodies, b.Counted count
  contents : ∀ b ∈ w.recording.bodies, ∀ x ∈ b.contents, x.Settled count w.recording
  exprs : ∀ e ∈ w.exprs, ∀ x ∈ e.mentions, x.Settled count w.recording
  finished : ∀ b ∈ w.finished, ∀ x ∈ b.mentions, x.Settled count w.recording

namespace Sound

variable {count : Nat → Nat} {w : Workbench}

theorem start : Sound (fun _ => 0) start where
  distinct := List.nodup_nil
  used _ hb := absurd hb List.not_mem_nil
  counted _ hb := absurd hb List.not_mem_nil
  contents _ hb := absurd hb List.not_mem_nil
  exprs _ he := absurd he List.not_mem_nil
  finished _ hb := absurd hb List.not_mem_nil

/-- A path that is given is settled. -/
theorem gives (h : w.Sound count) {p : Path} (hp : w.recording.Gives p) :
    (Mention.path p).Settled count w.recording := by
  obtain ⟨b, hb, hscope, horigin⟩ := hp
  refine ⟨?_, ?_, ?_⟩
  · rw [Mention.scope, ← hscope]
    exact h.used b hb
  · rintro b' ⟨⟩
  · intro i hi
    rw [← hscope, ← (h.counted b hb).length]
    exact horigin i hi

theorem makes (h : w.Sound count) {e : Expr} (he : w.recording.Makes e) :
    ∀ x ∈ e.mentions, x.Settled count w.recording := by
  cases he with
  | path hp | aggregate f hp =>
    intro x hx
    obtain rfl := List.mem_singleton.mp hx
    exact h.gives hp
  | literal | parameter | count => exact fun x hx => absurd hx List.not_mem_nil

theorem makesClause (h : w.Sound count) {c : Clause} (hc : w.Makes c) :
    ∀ x ∈ c.mentions, x.Settled count w.recording := by
  intro x hx
  cases hc with
  | compare op hleft hright | inSubquery negated hleft hright =>
    rcases List.mem_append.mp hx with hx | hx
    · exact h.exprs _ hleft x hx
    · exact h.exprs _ hright x hx
  | like _ _ he | inList _ _ he | isNull _ he => exact h.exprs _ he x hx
  | isEmpty _ hp =>
    obtain rfl := List.mem_singleton.mp hx
    exact h.gives hp
  | isMember _ he hp =>
    rcases List.mem_append.mp hx with hx | hx
    · exact h.exprs _ he x hx
    · obtain rfl := List.mem_singleton.mp hx
      exact h.gives hp

/-! ### Steps -/

/-- No join is declared in a scope that is opened anew. -/
theorem begin (h : w.Sound count) (entity : String) :
    Sound (fun scope => if scope = w.recording.nextScope then 0 else count scope)
      { w with recording := w.recording.begin entity } := by
  -- Other scopes keep their counts.
  have hcount : ∀ scope < w.recording.nextScope,
      (if scope = w.recording.nextScope then 0 else count scope) = count scope :=
    fun scope hscope => if_neg (Nat.ne_of_lt hscope)
  have hsettled : ∀ x : Mention, x.Settled count w.recording →
      x.Settled (fun scope => if scope = w.recording.nextScope then 0 else count scope)
        (w.recording.begin entity) := by
    intro x hx
    refine hx.mono (Nat.le_succ _) ?_ (fun scope hs => Nat.le_of_eq (hcount scope hs).symm)
      (fun scope hs _ => hcount scope hs)
    intro scope hscope
    rcases List.mem_cons.mp hscope with rfl | hscope
    · exact .inr (Nat.le_refl _)
    · exact .inl hscope
  refine ⟨List.nodup_cons.mpr ⟨?_, h.distinct⟩, ?_, ?_, ?_,
    fun e he x hx => hsettled x (h.exprs e he x hx),
    fun b hb x hx => hsettled x (h.finished b hb x hx)⟩
  · -- The new scope is not that of an open body.
    intro hmem
    obtain ⟨b, hb, hscope⟩ := List.mem_map.mp hmem
    exact Nat.ne_of_lt (h.used b hb) hscope
  · intro b hb
    rcases List.mem_cons.mp hb with rfl | hb
    · exact Nat.lt_succ_self _
    · exact Nat.lt_succ_of_lt (h.used b hb)
  · intro b hb
    rcases List.mem_cons.mp hb with rfl | hb
    · refine ⟨(if_pos rfl).symm, ?_⟩
      intro k d i hd
      cases hd
    · exact ⟨by rw [hcount b.scope (h.used b hb), (h.counted b hb).length],
        (h.counted b hb).parents⟩
  · -- Nothing is in the new body yet.
    intro b hb
    rcases List.mem_cons.mp hb with rfl | hb
    · exact fun x hx => absurd hx List.not_mem_nil
    · exact fun x hx => hsettled x (h.contents b hb x hx)

/-- A step that modifies the bodies of an open scope. Joins may be declared in these, so more of them be
counted for this scope. -/
theorem modifyBody (h : w.Sound count) {scope : Nat} {f : Body → Body} {count' : Nat → Nat}
    (hopen : scope ∈ w.recording.scopes) (hscope : ∀ b, (f b).scope = b.scope)
    (hle : count scope ≤ count' scope) (hother : ∀ s ≠ scope, count' s = count s)
    (hcounted : ∀ b ∈ w.recording.bodies, b.scope = scope → (f b).Counted count')
    (hcontents : ∀ b, ∀ x ∈ (f b).contents, x ∈ b.contents ∨ x.Settled count w.recording) :
    Sound count' { w with recording := ((Recorder.modifyBody scope f).run w.recording).2 } := by
  have hscopes := Recorder.scopes_modifyBody w.recording scope hscope
  -- Everything that was settled stays so, as its own scope is closed or keeps its count.
  have hsettled : ∀ x : Mention, x.Settled count w.recording →
      x.Settled count' ((Recorder.modifyBody scope f).run w.recording).2 := by
    intro x hx
    refine hx.mono (Nat.le_refl _) (fun s hs => ?_) (fun s _ => ?_) fun s _ hclosed =>
      hother s fun heq => hclosed (heq ▸ hopen)
    · exact .inl (hscopes ▸ hs)
    · by_cases heq : s = scope
      · exact heq ▸ hle
      · exact Nat.le_of_eq (hother s heq).symm
  refine ⟨hscopes ▸ h.distinct, fun _ hmem => ?_, fun _ hmem => ?_, fun _ hmem x hx => ?_,
    fun e he x hx => hsettled x (h.exprs e he x hx),
    fun b hb x hx => hsettled x (h.finished b hb x hx)⟩
  · -- Each body of the step is an old one, or what the step makes of an old one of the scope.
    rcases Recorder.mem_modifyBody hmem with ⟨hb, -⟩ | ⟨b, hb, -, rfl⟩
    · exact h.used _ hb
    · rw [hscope]
      exact h.used b hb
  · rcases Recorder.mem_modifyBody hmem with ⟨hb, hne⟩ | ⟨b, hb, heq, rfl⟩
    · exact ⟨by rw [hother _ hne, (h.counted _ hb).length], (h.counted _ hb).parents⟩
    · exact hcounted b hb heq
  · rcases Recorder.mem_modifyBody hmem with ⟨hb, -⟩ | ⟨b, hb, -, rfl⟩
    · exact hsettled x (h.contents _ hb x hx)
    · exact hsettled x ((hcontents b x hx).elim (h.contents b hb x) id)

/-- A step that records in the body of a given path what is settled. -/
theorem recordContents (h : w.Sound count) {p : Path} (hp : w.recording.Gives p) {f : Body → Body}
    (hscope : ∀ b, (f b).scope = b.scope) (hjoins : ∀ b, (f b).joins = b.joins)
    (hcontents : ∀ b, ∀ x ∈ (f b).contents, x ∈ b.contents ∨ x.Settled count w.recording) :
    Sound count { w with recording := ((Recorder.modifyBody p.scope f).run w.recording).2 } := by
  refine h.modifyBody hp.scope_mem hscope (Nat.le_refl _) (fun _ _ => rfl) (fun b hb _ => ?_)
    hcontents
  refine ⟨?_, ?_⟩
  · rw [hscope, hjoins]
    exact (h.counted b hb).length
  · rw [hjoins]
    exact (h.counted b hb).parents

theorem record (h : w.Sound count) {p : Path} {step : Recorder Unit} (hp : w.recording.Gives p)
    (hstep : w.Permits p step) : Sound count { w with recording := (step.run w.recording).2 } := by
  cases hstep with
  | @clause c hc =>
    -- What a new clause mentions was made before.
    refine h.recordContents hp (fun _ => rfl) (fun _ => rfl) fun b x hx => ?_
    rcases Body.mem_contents.mp hx with hx | hx
    · rw [statementsMentions_eq, List.flatMap_append, List.flatMap_singleton,
        ← statementsMentions_eq] at hx
      rcases List.mem_append.mp hx with hx | hx
      · exact .inl (Body.mem_contents.mpr (.inl hx))
      · exact .inr (h.makesClause hc x hx)
    · exact .inl (Body.mem_contents.mpr (.inr hx))
  | or =>
    refine h.recordContents hp (fun _ => rfl) (fun _ => rfl) fun b x hx => .inl ?_
    rcases Body.mem_contents.mp hx with hx | hx
    · rw [statementsMentions_eq, List.flatMap_append, List.flatMap_singleton, statementMentions,
        List.append_nil, ← statementsMentions_eq] at hx
      exact Body.mem_contents.mpr (.inl hx)
    · exact Body.mem_contents.mpr (.inr hx)
  | @select items hitems =>
    refine h.recordContents hp (fun _ => rfl) (fun _ => rfl) fun b x hx => ?_
    rcases Body.mem_contents.mp hx with hx | hx | hx
    · exact .inl (Body.mem_contents.mpr (.inl hx))
    · rw [selectionMentions, exprsMentions_eq] at hx
      obtain ⟨e, he, hx⟩ := List.mem_flatMap.mp hx
      exact .inr (h.exprs e (hitems e he) x hx)
    · exact .inl (Body.mem_contents.mpr (.inr (.inr hx)))
  | @orderBy e direction he =>
    refine h.recordContents hp (fun _ => rfl) (fun _ => rfl) fun b x hx => ?_
    rcases Body.mem_contents.mp hx with hx | hx | hx | hx
    · exact .inl (Body.mem_contents.mpr (.inl hx))
    · exact .inl (Body.mem_contents.mpr (.inr (.inl hx)))
    · rw [orderByMentions_eq, List.flatMap_append, List.flatMap_singleton,
        ← orderByMentions_eq] at hx
      rcases List.mem_append.mp hx with hx | hx
      · exact .inl (Body.mem_contents.mpr (.inr (.inr (.inl hx))))
      · exact .inr (h.exprs e he x hx)
    · exact .inl (Body.mem_contents.mpr (.inr (.inr (.inr hx))))
  | distinct => exact h.recordContents hp (fun _ => rfl) (fun _ => rfl) fun b x hx => .inl hx
  | @assign field e he =>
    refine h.recordContents hp (fun _ => rfl) (fun _ => rfl) fun b x hx => ?_
    rcases Body.mem_contents.mp hx with hx | hx | hx | hx
    · exact .inl (Body.mem_contents.mpr (.inl hx))
    · exact .inl (Body.mem_contents.mpr (.inr (.inl hx)))
    · exact .inl (Body.mem_contents.mpr (.inr (.inr (.inl hx))))
    · rcases mem_assignmentsMentions_assignTerm hx with hx | hx
      · exact .inl (Body.mem_contents.mpr (.inr (.inr (.inr hx))))
      · exact .inr (h.exprs e he x hx)

/-- A join is declared behind its parent, and counted from then on. -/
theorem join (h : w.Sound count) {parent : Path} (hparent : w.recording.Gives parent)
    (relation entity : String) (many : Bool) (kind : JoinKind) :
    Sound (fun scope => if scope = parent.scope then count scope + 1 else count scope)
      { w with
        recording := ((Recorder.join parent relation entity many kind).run w.recording).2 } := by
  refine h.modifyBody hparent.scope_mem (fun _ => rfl) ?_ (fun s hne => if_neg hne)
    (fun b hb heq => ?_) fun b x hx => .inl hx
  · rw [if_pos rfl]
    exact Nat.le_succ _
  · obtain ⟨b', hb', hscope', horigin⟩ := hparent
    have hlength := (h.counted b hb).length
    refine ⟨?_, ?_⟩
    · rw [if_pos heq, List.length_append, hlength]
      rfl
    · intro k d i hd hi
      rcases Nat.lt_or_ge k b.joins.length with hk | hk
      · rw [List.getElem?_append_left hk] at hd
        exact (h.counted b hb).parents k d i hd hi
      · -- The new join, whose parent is a join of the same scope.
        rw [List.getElem?_append_right hk] at hd
        obtain rfl := List.mem_singleton.mp (List.mem_of_getElem? hd)
        have hi' := horigin i hi
        rw [(h.counted b' hb').length, hscope', ← heq, ← hlength] at hi'
        exact Nat.lt_of_lt_of_le hi' hk

/-- A body that is finished is settled. -/
theorem close (h : w.Sound count) {b : Body} {bodies : List Body}
    (hb : w.recording.bodies = b :: bodies) :
    Sound count { w with recording := ⟨w.recording.nextScope, bodies⟩ } ∧
      ∀ x ∈ b.mentions, x.Settled count ⟨w.recording.nextScope, bodies⟩ := by
  obtain ⟨⟨nextScope, _⟩, exprs, finished⟩ := w
  obtain rfl := hb
  have hdistinct := List.nodup_cons.mp h.distinct
  -- Closing a scope only leaves fewer of them open.
  have hsettled : ∀ x : Mention, x.Settled count ⟨nextScope, b :: bodies⟩ →
      x.Settled count ⟨nextScope, bodies⟩ := fun x hx =>
    hx.mono (Nat.le_refl _) (fun _ hmem => .inl (List.mem_cons_of_mem _ hmem))
      (fun _ _ => Nat.le_refl _) fun _ _ _ => rfl
  refine ⟨⟨hdistinct.2, fun b' hb' => h.used b' (List.mem_cons_of_mem b hb'),
    fun b' hb' => h.counted b' (List.mem_cons_of_mem b hb'),
    fun b' hb' x hx => hsettled x (h.contents b' (List.mem_cons_of_mem b hb') x hx),
    fun e he x hx => hsettled x (h.exprs e he x hx),
    fun b' hb' x hx => hsettled x (h.finished b' hb' x hx)⟩, fun x hx => ?_⟩
  rw [Body.mentions_eq] at hx
  rcases List.mem_cons.mp hx with rfl | hx
  · -- The body's scope is closed with it, because no two open bodies share one.
    refine ⟨h.used b List.mem_cons_self, ?_, h.counted b List.mem_cons_self⟩
    rintro _ ⟨⟩
    exact hdistinct.1
  · exact hsettled x (h.contents b List.mem_cons_self x hx)

/-- What a step leads to is sound, for other counts. -/
theorem step {w' : Workbench} (h : w.Sound count) (hstep : w.Step w') :
    ∃ count', w'.Sound count' := by
  cases hstep with
  | begin entity => exact ⟨_, h.begin entity⟩
  | make he =>
    refine ⟨count, { h with exprs := fun e' he' => ?_ }⟩
    rcases List.mem_cons.mp he' with rfl | he'
    · exact h.makes he
    · exact h.exprs e' he'
  | record hp hstep => exact ⟨count, h.record hp hstep⟩
  | join relation entity many kind hparent => exact ⟨_, h.join hparent relation entity many kind⟩
  | subquery hb hreturns =>
    obtain ⟨hclosed, hbody⟩ := h.close hb
    refine ⟨count, { hclosed with exprs := fun e he x hx => ?_ }⟩
    rcases List.mem_cons.mp he with rfl | he
    · rcases List.mem_append.mp hx with hx | hx
      · exact hbody x hx
      · exact hclosed.exprs _ hreturns x hx
    · exact hclosed.exprs e he x hx
  | finish hb =>
    obtain ⟨hclosed, hbody⟩ := h.close hb
    refine ⟨count, { hclosed with finished := fun b' hb' => ?_ }⟩
    rcases List.mem_cons.mp hb' with rfl | hb'
    · exact hbody
    · exact hclosed.finished b' hb'

end Sound

theorem Reachable.sound {w : Workbench} (h : w.Reachable) : ∃ count, w.Sound count := by
  induction h with
  | refl => exact ⟨_, .start⟩
  | tail _ hstep ih =>
    obtain ⟨count, hw⟩ := ih
    exact hw.step hstep

/-- All that a finished body starts paths at is declared. -/
theorem Reachable.declared {w : Workbench} (h : w.Reachable) {b : Body} (hb : b ∈ w.finished) :
    b.Declared := by
  obtain ⟨count, hw⟩ := h.sound
  exact ⟨count, fun x hx => (hw.finished b hb x hx).counted⟩

end Workbench

end EntityQuery
