import LustreCsi.Analysis.UpcallWhitelist

/-!
# The environment of an upcall

The sanitised environment of a request (`sanitizeEnv`) stands in front of that of the container, and
the last entry of a name counts. `environment_confined`: the child finds the container's values
wherever the container has one, and a request cannot set a variable of the loader or of the
interpreters.
-/

set_option autoImplicit false

namespace LustreCsi.Analysis.UpcallEnvironment

open LustreCsi.Computation Model Model.Upcall UpcallWhitelist

variable {name entry : String}

/-- The variables that load or change code in the child.
SOURCE: pkg/upcall/server.go:247 -/
def Hijacks (name : String) : Prop :=
  "LD_".toList <+: name.toList ∨ "PYTHON".toList <+: name.toList ∨ "PERL".toList <+: name.toList

/-- An entry gives a value to the variable whose name stands before its first equals sign. -/
theorem valueOf_isSome :
    (valueOf name entry).isSome = true ↔ '=' ∈ entry.toList ∧ keyOf entry = name := by
  have hmem : '=' ∈ entry.toList ↔ entry.toList.dropWhile (· ≠ '=') ≠ [] := by
    simp
  rw [hmem, valueOf]
  cases entry.toList.dropWhile (· ≠ '=') with
  | nil => simp
  | cons _ value => by_cases hname : keyOf entry = name <;> simp [hname]

/-- An entry gives no value to another variable. -/
theorem valueOf_eq_none (h : ¬('=' ∈ entry.toList ∧ keyOf entry = name)) :
    valueOf name entry = none := by
  rw [← Option.not_isSome_iff_eq_none, valueOf_isSome]
  exact h

/-- The entries of a variable are those that have its name for `os/exec`. -/
theorem dedupKey_eq_iff (hne : name ≠ "") (hname : '=' ∉ name.toList) :
    dedupKey entry = some name ↔ '=' ∈ entry.toList ∧ keyOf entry = name := by
  unfold dedupKey
  split
  · rename_i rest hentry
    -- An equals sign at the front: the name for `os/exec` is empty or starts with it.
    have hkey : keyOf entry = "" := by simp [keyOf, hentry]
    constructor
    · intro h
      have h' := Option.some.inj h
      split at h'
      · rw [← h', String.toList_ofList] at hname
        exact absurd List.mem_cons_self hname
      · exact absurd h'.symm hne
    · rintro ⟨-, h⟩
      exact absurd (h.symm.trans hkey) hne
  · split
    · rename_i hmem
      simp [hmem]
    · rename_i hmem
      simp [hmem]

/-- A child finds the value of the last entry of the name. -/
theorem childValue_eq (env : List String) (hne : name ≠ "") :
    childValue env name = env.reverse.findSome? (valueOf name) := by
  unfold childValue getenv
  rw [if_neg hne]
  -- Whether the first entry is dropped depends on the later ones; in both cases it counts only if none of
  -- them has the name.
  induction env with
  | nil => rfl
  | cons entry env ih =>
    rw [List.reverse_cons, List.findSome?_append, List.findSome?_singleton]
    unfold dedupEnv
    by_cases hentry : '=' ∈ entry.toList ∧ keyOf entry = name
    · have hplain : '=' ∉ name.toList := by
        rw [← hentry.2, keyOf, String.toList_ofList]
        exact fun hmem => by simpa using List.mem_takeWhile_imp hmem
      have hlater : (env.any fun later => dedupKey later = some name) = true ↔
          (env.reverse.findSome? (valueOf name)).isSome = true := by
        simp [List.findSome?_isSome_iff, dedupKey_eq_iff hne hplain, valueOf_isSome]
      rw [(dedupKey_eq_iff hne hplain).mpr hentry]
      dsimp only
      split
      · rename_i hdrop
        obtain ⟨value, hvalue⟩ := Option.isSome_iff_exists.mp (hlater.mp hdrop)
        rw [ih, hvalue, Option.some_or]
      rename_i hkeep
      have hnone : env.reverse.findSome? (valueOf name) = none := by
        rw [← Option.not_isSome_iff_eq_none, ← hlater]
        exact hkeep
      obtain ⟨value, hvalue⟩ := Option.isSome_iff_exists.mp (valueOf_isSome.mpr hentry)
      rw [List.findSome?_cons, hvalue, hnone, Option.none_or]
    · have hskip : (entry :: dedupEnv env).findSome? (valueOf name) = (dedupEnv env).findSome? (valueOf name) := by
        rw [List.findSome?_cons, valueOf_eq_none hentry]
      rw [valueOf_eq_none hentry, Option.or_none, ← ih]
      split
      · split
        · rfl
        · exact hskip
      split
      · rfl
      · exact hskip

/-- No variable has the empty name. -/
theorem childValue_empty (env : List String) : childValue env "" = none := rfl

/-- What stands behind counts first. -/
theorem childValue_append (env environ : List String) (name : String) :
    childValue (env ++ environ) name = (childValue environ name).or (childValue env name) := by
  by_cases hne : name = ""
  · simp only [hne, childValue_empty, Option.or_none]
  rw [childValue_eq _ hne, childValue_eq _ hne, childValue_eq _ hne, List.reverse_append,
    List.findSome?_append]

/-- The entries that stay are those of the other variables. -/
theorem clean_iff (key : String) :
    (!(hasPrefix key "LD_" || hasPrefix key "PYTHON" || hasPrefix key "PERL")) = true ↔ ¬Hijacks key := by
  simp only [Bool.not_eq_true', ← Bool.not_eq_true, Bool.or_eq_true, hasPrefix,
    List.isPrefixOf_iff_prefix, Hijacks, or_assoc]

/-- The sanitised environment gives no value to a variable that changes the child. -/
theorem childValue_sanitizeEnv {env : List String} (h : Hijacks name) :
    childValue (sanitizeEnv env) name = none := by
  have hne : name ≠ "" := by
    rintro rfl
    revert h
    simp [Hijacks]
  rw [childValue_eq _ hne, List.findSome?_eq_none_iff]
  intro entry hentry
  have hclean := (clean_iff _).mp (List.mem_filter.mp (List.mem_reverse.mp hentry)).2
  refine valueOf_eq_none ?_
  rintro ⟨-, rfl⟩
  exact hclean h

/-- The sanitised environment gives the request's values to the other variables. -/
theorem childValue_sanitizeEnv_of_not {env : List String} (h : ¬Hijacks name) :
    childValue (sanitizeEnv env) name = childValue env name := by
  by_cases hne : name = ""
  · rw [hne, childValue_empty, childValue_empty]
  induction env with
  | nil => rfl
  | cons entry env ih =>
    have hcons : ∀ l, childValue (entry :: l) name = (childValue l name).or (valueOf name entry) := by
      intro l
      rw [childValue_eq _ hne, childValue_eq _ hne, List.reverse_cons, List.findSome?_append,
        List.findSome?_singleton]
    rw [hcons, ← ih]
    unfold sanitizeEnv
    rw [List.filter_cons]
    split
    · exact hcons _
    rename_i hstrip
    have hhijack : Hijacks (keyOf entry) := by simpa only [clean_iff, not_not] using hstrip
    have hnone : valueOf name entry = none := by
      refine valueOf_eq_none ?_
      rintro ⟨-, rfl⟩
      exact h hhijack
    rw [hnone, Option.or_none]

/-- **The environment of an upcall is confined.** Let two requests be run in one container, and take a
command of each run. In the child's environment every variable of the container has the container's
value. Requests that agree on the variables the container does not define give the same values to all
variables. A variable whose name starts with `LD_`, `PYTHON` or `PERL` has the value of the container, or
none.

SOURCE: pkg/upcall/server.go:140-156, 241-255 -/
theorem environment_confined {U : Unicode} {environ : List String} {req req' : Request}
    {tr tr' : List (Event upcallSig)} {resp resp' : Response}
    (hrun : Yields (executeCommand U environ req) tr resp)
    (hrun' : Yields (executeCommand U environ req') tr' resp') {e e' : Event upcallSig} (he : e ∈ tr)
    (he' : e' ∈ tr') :
    (∀ name value, childValue environ name = some value → childValue e.1.env name = some value) ∧
    ((∀ name, childValue environ name = none → childValue req.env name = childValue req'.env name) →
      ∀ name, childValue e.1.env name = childValue e'.1.env name) ∧
    ∀ name, Hijacks name → childValue e.1.env name = childValue environ name := by
  rw [(command_of_run hrun he).2, (command_of_run hrun' he').2]
  refine ⟨fun name value hvalue => ?_, fun hagree name => ?_, fun name hname => ?_⟩
  · rw [childValue_append, hvalue, Option.some_or]
  · rw [childValue_append, childValue_append]
    cases hvalue : childValue environ name with
    | some value => rw [Option.some_or, Option.some_or]
    | none =>
      by_cases hname : Hijacks name
      · rw [childValue_sanitizeEnv hname, childValue_sanitizeEnv hname]
      rw [childValue_sanitizeEnv_of_not hname, childValue_sanitizeEnv_of_not hname,
        hagree name hvalue]
  · rw [childValue_append, childValue_sanitizeEnv hname, Option.or_none]

/-- A request that tries to set the path and to load a library. -/
def hostile : Request := ⟨["l_gssiam_upcall"], ["PATH=/tmp", "LD_PRELOAD=/tmp/x.so", "LANG=C", "junk"]⟩

/-- A request with the same language that leaves path and libraries alone. -/
def modest : Request := ⟨["l_gssiam_upcall"], ["LANG=C"]⟩

/-- The two requests differ only in the path and in what is loaded. -/
theorem hostile_agrees_modest (hpath : name ≠ "PATH") (hload : name ≠ "LD_PRELOAD") :
    childValue hostile.env name = childValue modest.env name := by
  by_cases hne : name = ""
  · rw [hne, childValue_empty, childValue_empty]
  have hvalue : ∀ entry, keyOf entry ≠ name → valueOf name entry = none := fun entry h =>
    valueOf_eq_none fun hentry => h hentry.2
  have hjunk : valueOf name "junk" = none := valueOf_eq_none fun h => absurd h.1 (by decide)
  rw [childValue_eq _ hne, childValue_eq _ hne]
  simp only [hostile, modest, List.reverse_cons, List.reverse_nil, List.nil_append, List.cons_append,
    List.findSome?_cons, List.findSome?_nil, hjunk, hvalue "PATH=/tmp" hpath.symm,
    hvalue "LD_PRELOAD=/tmp/x.so" hload.symm]

/-- A command that the server runs with the given environment. -/
theorem yields_upcall (environ : List String) (env : List String) :
    Yields (executeCommand .asciiOnly environ ⟨["l_gssiam_upcall"], env⟩)
      [⟨⟨iamUpcallPath, [], sanitizeEnv env ++ environ⟩, ⟨"", "", none⟩⟩] ⟨0, "", "", ""⟩ :=
  ⟨_, (), [], trivial, rfl, rfl, rfl, rfl⟩

/-- The path stays the container's, and no library is loaded; a modest request in a container that sets the
loader gives its child the same values as the hostile one. -/
theorem environment_confined_hostile :
    ∃ tr tr' resp resp', ∃ e ∈ tr, ∃ e' ∈ tr',
      Yields (executeCommand .asciiOnly ["PATH=/bin", "LD_PRELOAD=/lib/y.so"] hostile) tr resp ∧
      Yields (executeCommand .asciiOnly ["PATH=/bin", "LD_PRELOAD=/lib/y.so"] modest) tr' resp' ∧
      childValue e.1.env "PATH" = some "/bin" ∧ childValue e.1.env "LD_PRELOAD" = some "/lib/y.so" ∧
      childValue e.1.env "LD_LIBRARY_PATH" = none ∧ childValue e.1.env "LANG" = some "C" ∧
      ∀ name, childValue e.1.env name = childValue e'.1.env name := by
  have hrun := yields_upcall ["PATH=/bin", "LD_PRELOAD=/lib/y.so"] hostile.env
  have hrun' := yields_upcall ["PATH=/bin", "LD_PRELOAD=/lib/y.so"] modest.env
  obtain ⟨hpath, hagree, hhijack⟩ :=
    environment_confined hrun hrun' List.mem_cons_self List.mem_cons_self
  refine ⟨_, _, _, _, _, List.mem_cons_self, _, List.mem_cons_self, hrun, hrun', hpath _ _ (by decide),
    hpath _ _ (by decide), (hhijack _ (.inl (by decide))).trans (by decide), by decide, hagree ?_⟩
  intro name hnone
  apply hostile_agrees_modest
  · rintro rfl
    exact absurd hnone (by decide)
  · rintro rfl
    exact absurd hnone (by decide)

end LustreCsi.Analysis.UpcallEnvironment
