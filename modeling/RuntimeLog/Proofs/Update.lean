import RuntimeLog.Fault

/-!
# Updates without partial effects

An update may change the model before it fails.  Most of them do not: they first
look whether they can be made, and then make all of their changes.  Some changes
of the model make no difference to an update.
-/

namespace RuntimeLog
namespace Update

variable {Model View α β : Type} {view : Model → View}

/-- An update which leaves the model as it was where it fails, and otherwise
leaves a part of it as it was. -/
def Atomic (view : Model → View) (update : Update Model α) : Prop :=
  ∀ model,
    match update.run model with
    | .ok _ later => view later = view model
    | .error _ later => later = model

/-- An update which does not change the model. -/
def Looks (update : Update Model α) : Prop :=
  update.Atomic id

/-- An update which does not fail, and leaves a part of the model as it was. -/
def Makes (view : Model → View) (update : Update Model α) : Prop :=
  ∀ model, ∃ value later, update.run model = .ok value later ∧ view later = view model

/-- The model behind an atomic update which failed. -/
theorem Atomic.eq_of_error
    {update : Update Model α}
    (atomic : update.Atomic view)
    {model later : Model}
    {error : DecodeError}
    (failed : update.run model = .error error later) :
    later = model := by
  have known := atomic model
  rw [failed] at known
  exact known

/-- What an atomic update leaves as it was. -/
theorem Atomic.view_of_ok
    {update : Update Model α}
    (atomic : update.Atomic view)
    {model later : Model}
    {value : α}
    (made : update.run model = .ok value later) :
    view later = view model := by
  have known := atomic model
  rw [made] at known
  exact known

/-- An update which does not fail is atomic. -/
theorem Makes.atomic {update : Update Model α} (makes : update.Makes view) :
    update.Atomic view := by
  intro model
  obtain ⟨value, later, made, kept⟩ := makes model
  rw [made]
  exact kept

/-- To give up is atomic. -/
theorem atomic_throw (error : DecodeError) :
    Atomic view (throw error : Update Model α) := by
  intro model
  rfl

/-- Looking at the model does not change it. -/
theorem looks_get : Looks (get : Update Model Model) := by
  intro model
  rfl

/-- To look first and then be atomic is atomic. -/
theorem Looks.bind
    {update : Update Model α}
    {next : α → Update Model β}
    (looks : update.Looks)
    (atomic : ∀ value, (next value).Atomic view) :
    Atomic view (update >>= next) := by
  intro model
  rw [EStateM.run_bind]
  cases answered : update.run model with
  | ok value later =>
      have same : later = model := Atomic.view_of_ok looks answered
      rw [same]
      exact atomic value model
  | error error later => exact Atomic.eq_of_error looks answered

/-- A change of the model does not fail. -/
theorem makes_modify
    {change : Model → Model}
    (keeps : ∀ model, view (change model) = view model) :
    Makes view (modify change : Update Model Unit) := by
  intro model
  exact ⟨(), change model, rfl, keeps model⟩

/-- A change of the model is atomic. -/
theorem atomic_modify
    {change : Model → Model}
    (keeps : ∀ model, view (change model) = view model) :
    Atomic view (modify change : Update Model Unit) :=
  (makes_modify keeps).atomic

/-- To look at the model does not fail. -/
theorem makes_get : Makes view (get : Update Model Model) := by
  intro model
  exact ⟨model, model, rfl, rfl⟩

/-- To do nothing does not fail. -/
theorem makes_pure (value : α) : Makes view (pure value : Update Model α) := by
  intro model
  exact ⟨value, model, rfl, rfl⟩

/-- What becomes of looking something up. -/
theorem run_look (lookup : Model → Except DecodeError α) (model : Model) :
    (look lookup).run model =
      match lookup model with
      | .ok value => .ok value model
      | .error error => .error error model := by
  cases found : lookup model with
  | ok value => simp [look, found]
  | error error =>
      unfold look
      rw [EStateM.run_bind, EStateM.run_get]
      simp only [found]
      rfl

/-- Looking something up in the model does not change it. -/
theorem looks_look (lookup : Model → Except DecodeError α) : (look lookup).Looks := by
  apply looks_get.bind
  intro model
  split
  · exact (makes_pure _).atomic
  · exact atomic_throw _

/-- Two updates which do not fail do not fail one after the other. -/
theorem Makes.bind
    {update : Update Model α}
    {next : α → Update Model β}
    (first : update.Makes view)
    (second : ∀ value, (next value).Makes view) :
    Makes view (update >>= next) := by
  intro model
  obtain ⟨value, middle, made, kept⟩ := first model
  obtain ⟨result, later, further, still⟩ := second value middle
  refine ⟨result, later, ?_, still.trans kept⟩
  rw [EStateM.run_bind, made]
  exact further

/-! ## Updates which are made -/

/-- Updates one after the other are made if both are. -/
theorem run_bind_eq_ok
    {update : Update Model α}
    {next : α → Update Model β}
    {model later : Model}
    {result : β} :
    (update >>= next).run model = .ok result later ↔
      ∃ value middle, update.run model = .ok value middle ∧
        (next value).run middle = .ok result later := by
  rw [EStateM.run_bind]
  cases update.run model with
  | ok value middle =>
      constructor
      · intro made
        exact ⟨value, middle, rfl, made⟩
      · rintro ⟨_, _, same, made⟩
        cases same
        exact made
  | error error middle => simp

/-- Something is looked up if it is there. -/
theorem run_look_eq_ok
    {lookup : Model → Except DecodeError α}
    {model later : Model}
    {value : α} :
    (look lookup).run model = .ok value later ↔ lookup model = .ok value ∧ later = model := by
  rw [run_look]
  cases lookup model <;> simp [eq_comm]

/-- Looking at the model gives the model. -/
theorem run_get_eq_ok {model later value : Model} :
    (get : Update Model Model).run model = .ok value later ↔ value = model ∧ later = model := by
  rw [EStateM.run_get]
  simp [eq_comm]

/-- A change of the model is made. -/
theorem run_modify_eq_ok
    {change : Model → Model}
    {model later : Model}
    {value : Unit} :
    (modify change : Update Model Unit).run model = .ok value later ↔ later = change model := by
  rw [EStateM.run_modify]
  simp [eq_comm]

/-- To do nothing is made. -/
theorem run_pure_eq_ok {model later : Model} {value result : α} :
    (pure value : Update Model α).run model = .ok result later ↔
      result = value ∧ later = model := by
  rw [EStateM.run_pure]
  simp [eq_comm]

/-- To give up is not made. -/
theorem run_throw_ne_ok {model later : Model} {error : DecodeError} {value : α} :
    (throw error : Update Model α).run model ≠ .ok value later := by
  intro made
  cases made

/-! ## Updates which do not see a change -/

/-- An update which does the same to a changed model, and leaves the change
there. -/
def Ignores (change : Model → Model) (update : Update Model α) : Prop :=
  ∀ model,
    update.run (change model) =
      match update.run model with
      | .ok value later => .ok value (change later)
      | .error error later => .error error (change later)

variable {change : Model → Model}

/-- An update which ignores a change is made with it if it is made without it. -/
theorem Ignores.run_eq_ok
    {update : Update Model α}
    (ignores : update.Ignores change)
    {model later : Model}
    {value : α}
    (made : update.run model = .ok value later) :
    update.run (change model) = .ok value (change later) := by
  rw [ignores model, made]

/-- An update which ignores a change fails with it if it fails without it. -/
theorem Ignores.run_eq_error
    {update : Update Model α}
    (ignores : update.Ignores change)
    {model later : Model}
    {error : DecodeError}
    (failed : update.run model = .error error later) :
    update.run (change model) = .error error (change later) := by
  rw [ignores model, failed]

/-- An update which ignores a change is made without it if it is made with it. -/
theorem Ignores.exists_ok
    {update : Update Model α}
    (ignores : update.Ignores change)
    {model last : Model}
    {value : α}
    (made : update.run (change model) = .ok value last) :
    ∃ later, update.run model = .ok value later ∧ last = change later := by
  cases ran : update.run model with
  | ok other later =>
      cases made.symm.trans (ignores.run_eq_ok ran)
      exact ⟨later, rfl, rfl⟩
  | error error later => cases made.symm.trans (ignores.run_eq_error ran)

/-- An update which ignores a change fails without it if it fails with it. -/
theorem Ignores.exists_error
    {update : Update Model α}
    (ignores : update.Ignores change)
    {model last : Model}
    {error : DecodeError}
    (failed : update.run (change model) = .error error last) :
    ∃ later, update.run model = .error error later ∧ last = change later := by
  cases ran : update.run model with
  | ok value later => cases failed.symm.trans (ignores.run_eq_ok ran)
  | error other later =>
      cases failed.symm.trans (ignores.run_eq_error ran)
      exact ⟨later, rfl, rfl⟩

/-- To give up ignores every change. -/
theorem ignores_throw (error : DecodeError) :
    Ignores change (throw error : Update Model α) := by
  intro model
  rfl

/-- To do nothing ignores every change. -/
theorem ignores_pure (value : α) : Ignores change (pure value : Update Model α) := by
  intro model
  rfl

/-- Two changes which can be made in either order ignore each other. -/
theorem ignores_modify
    {other : Model → Model}
    (swap : ∀ model, other (change model) = change (other model)) :
    Ignores change (modify other : Update Model Unit) := by
  intro model
  simp only [EStateM.run_modify, swap]

/-- To look something up ignores a change which does not touch it. -/
theorem ignores_look
    {lookup : Model → Except DecodeError α}
    (untouched : ∀ model, lookup (change model) = lookup model) :
    Ignores change (look lookup) := by
  intro model
  rw [run_look, run_look, untouched]
  cases lookup model <;> rfl

/-- Updates one after the other ignore what both do. -/
theorem Ignores.bind
    {update : Update Model α}
    {next : α → Update Model β}
    (first : update.Ignores change)
    (second : ∀ value, (next value).Ignores change) :
    Ignores change (update >>= next) := by
  intro model
  rw [EStateM.run_bind, EStateM.run_bind, first model]
  cases update.run model with
  | ok value later => exact second value later
  | error error later => rfl

/-- To go on with the model ignores a change which makes no difference to that. -/
theorem ignores_get_bind
    {next : Model → Update Model α}
    (untouched : ∀ model, next (change model) = next model)
    (ignores : ∀ model, (next model).Ignores change) :
    Ignores change (get >>= next) := by
  intro model
  rw [EStateM.run_bind, EStateM.run_bind, EStateM.run_get, EStateM.run_get]
  dsimp only
  rw [untouched]
  exact ignores model model

/-- To look something up which the change converts ignores the change if this makes no
difference to what follows. -/
theorem ignores_look_bind
    {lookup : Model → Except DecodeError α}
    {convert : α → α}
    {next : α → Update Model β}
    (converted : ∀ model, lookup (change model) = (lookup model).map convert)
    (unseen : ∀ value, next (convert value) = next value)
    (ignores : ∀ value, (next value).Ignores change) :
    Ignores change (look lookup >>= next) := by
  intro model
  rw [EStateM.run_bind, EStateM.run_bind, run_look, run_look, converted]
  cases lookup model with
  | error error => rfl
  | ok value =>
      dsimp only [Except.map]
      rw [unseen]
      exact ignores value model

/-! ## Updates which do not fail for some cause -/

/-- An update which does not fail for some cause, in no model. -/
def Avoids (cause : DecodeError) (update : Update Model α) : Prop :=
  ∀ model later, update.run model ≠ .error cause later

variable {cause : DecodeError}

/-- To give up avoids all causes but one. -/
theorem avoids_throw {error : DecodeError} (other : error ≠ cause) :
    Avoids cause (throw error : Update Model α) := by
  intro model later failed
  cases failed
  exact other rfl

/-- A change of the model avoids every cause. -/
theorem avoids_modify (change : Model → Model) :
    Avoids cause (modify change : Update Model Unit) := by
  intro model later failed
  cases failed

/-- Looking at the model avoids every cause. -/
theorem avoids_get : Avoids cause (get : Update Model Model) := by
  intro model later failed
  cases failed

/-- To do nothing avoids every cause. -/
theorem avoids_pure (value : α) : Avoids cause (pure value : Update Model α) := by
  intro model later failed
  cases failed

/-- To look something up avoids the causes for which nothing is missing. -/
theorem avoids_look
    {lookup : Model → Except DecodeError α}
    (other : ∀ model, lookup model ≠ .error cause) :
    Avoids cause (look lookup) := by
  intro model later failed
  rw [run_look] at failed
  cases found : lookup model with
  | ok value =>
      rw [found] at failed
      cases failed
  | error error =>
      rw [found] at failed
      cases failed
      exact other model found

/-- Updates one after the other avoid what both avoid. -/
theorem Avoids.bind
    {update : Update Model α}
    {next : α → Update Model β}
    (first : update.Avoids cause)
    (second : ∀ value, (next value).Avoids cause) :
    Avoids cause (update >>= next) := by
  intro model later failed
  rw [EStateM.run_bind] at failed
  cases answered : update.run model with
  | ok value middle =>
      rw [answered] at failed
      exact second value middle later failed
  | error error middle =>
      rw [answered] at failed
      cases failed
      exact first model later answered

end Update
end RuntimeLog
