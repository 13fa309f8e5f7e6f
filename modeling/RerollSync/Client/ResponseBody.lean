import RerollSync.Support.Json

/-!
# Response bodies

`_parse_index_body` and `_parse_project_body` read whatever JSON a server returns.  A key
that is missing in an object becomes a `PyPIProtocolError`.  Nothing checks the types of
the values: one of the wrong type ends the parse in an exception that callers take for a
mistake of the program, or goes into the page as it is.
-/

namespace RerollSync.Client

open RerollSync.Support

/-! ## Values in Python -/

/-- What an operation on a value raises. -/
inductive PyError
  | keyError (key : String)
  | typeError
  | attributeError
deriving DecidableEq, Repr

/-- `value[key]`. -/
def subscript (key : String) : Json → Except PyError Json
  | .obj pairs =>
      match lookup key pairs with
      | some value => .ok value
      | none => .error (.keyError key)
  | _ => .error .typeError

/-- `value.get(key, default)`; `None` is null. -/
def get (key : String) (default : Json) : Json → Except PyError Json
  | .obj pairs => .ok ((lookup key pairs).getD default)
  | _ => .error .attributeError

/-- `for item in value`; a dictionary has its keys, each once. -/
def iterate : Json → Except PyError (List Json)
  | .arr items => .ok items
  | .obj pairs => .ok ((pairs.map Prod.fst).eraseDups.map .str)
  | .str s => .ok (s.map fun c => .str [c])
  | _ => .error .typeError

/-- `isinstance(value, dict)`. -/
def asDict : Json → Option (List (List CodePoint × Json))
  | .obj pairs => some pairs
  | _ => none

/-- `value is True`. -/
def isTrue : Json → Bool
  | .bool b => b
  | _ => false

/-- `isinstance(value, int)`, which holds of `True` and `False`. -/
def IsInt : Json → Prop
  | .int _ | .bool _ => True
  | _ => False

/-- `isinstance(value, str)`. -/
def IsStr : Json → Prop
  | .str _ => True
  | _ => False

/-- `None`, or of the type. -/
def Optional (P : Json → Prop) (value : Json) : Prop :=
  match value with
  | .null => True
  | value => P value

/-! ## The parsers -/

/-- `IndexProject`. -/
structure IndexProject where
  name : Json
  serial : Json

/-- `ProjectFile`. -/
structure ProjectFile where
  filename : Json
  url : Json
  wheelSha256 : Json
  metadataSha256 : Json
  hasMetadata : Bool
  size : Json
  uploadTime : Json
  requiresPython : Json
  yanked : Bool
  yankedReason : Option (List CodePoint)

/-- `metadata_hashes`. -/
def metadataHashes (raw : Json) : Except PyError (Option (List (List CodePoint × Json))) := do
  let values := [← get "core-metadata" .null raw, ← get "dist-info-metadata" .null raw]
  return values.findSome? asDict <|> if values.any isTrue then some [] else none

/-- `_parse_yanked`. -/
def parseYanked : Json → Bool × Option (List CodePoint)
  | .str s => (true, if s = [] then none else some s)
  | value => (value.truthy, none)

/-- `hashes_meta.get("sha256") if hashes_meta is not None else None`. -/
def sha256Of : Option (List (List CodePoint × Json)) → Json
  | some hashes => (lookup "sha256" hashes).getD .null
  | none => .null

/-- `_parse_file`. -/
def parseFile (raw : Json) : Except PyError ProjectFile := do
  let hashes ← get "hashes" .null raw
  let hashes := if hashes.truthy then hashes else .obj []
  let hashesMeta ← metadataHashes raw
  let (yanked, yankedReason) := parseYanked (← get "yanked" (.bool false) raw)
  return {
    filename := ← subscript "filename" raw
    url := ← subscript "url" raw
    wheelSha256 := ← get "sha256" .null hashes
    metadataSha256 := sha256Of hashesMeta
    hasMetadata := hashesMeta.isSome
    size := ← get "size" .null raw
    uploadTime := ← get "upload-time" .null raw
    requiresPython := ← get "requires-python" .null raw
    yanked := yanked
    yankedReason := yankedReason }

/-- An entry of the index. -/
def parseProject (project : Json) : Except PyError IndexProject := do
  return { name := ← subscript "name" project, serial := ← subscript "_last-serial" project }

/-- What a parser raises: a `KeyError` becomes `PyPIProtocolError`, which names the key. -/
inductive BodyError
  | pypiProtocolError (missing : String)
  | typeError
  | attributeError
deriving DecidableEq, Repr

/-- `except KeyError`. -/
def BodyError.ofPy : PyError → BodyError
  | .keyError key => .pypiProtocolError key
  | .typeError => .typeError
  | .attributeError => .attributeError

section Body

variable {α : Type} (parseItem : Json → Except PyError α)

/-- The items, each parsed, with the serial. -/
def parseItems (lastSerial : Json) (items : List Json) : Except PyError (Json × List α) := do
  return (lastSerial, ← items.mapM parseItem)

/-- The serial and the items under a key. -/
def parseBody (key : String) (data : Json) : Except BodyError (Json × List α) :=
  Except.mapError .ofPy do
    let lastSerial ← subscript "_last-serial" (← subscript "meta" data)
    parseItems parseItem lastSerial (← iterate (← subscript key data))

end Body

/-- `_parse_index_body`. -/
def parseIndexBody : Json → Except BodyError (Json × List IndexProject) :=
  parseBody parseProject "projects"

/-- `_parse_project_body`. -/
def parseProjectBody : Json → Except BodyError (Json × List ProjectFile) :=
  parseBody parseFile "files"

/-! ## What a page may hold -/

structure IndexProject.Typed (project : IndexProject) : Prop where
  name : IsStr project.name
  serial : IsInt project.serial

structure ProjectFile.Typed (file : ProjectFile) : Prop where
  filename : IsStr file.filename
  url : IsStr file.url
  wheelSha256 : Optional IsStr file.wheelSha256
  metadataSha256 : Optional IsStr file.metadataSha256
  size : Optional IsInt file.size
  uploadTime : Optional IsStr file.uploadTime
  requiresPython : Optional IsStr file.requiresPython

/-- A `PyPIProtocolError`, or a page with values of the types it declares. -/
def Handled {α : Type} (Typed : α → Prop) (r : Except BodyError (Json × List α)) : Prop :=
  (∃ missing, r = .error (.pypiProtocolError missing)) ∨
    ∃ lastSerial items, r = .ok (lastSerial, items) ∧ IsInt lastSerial ∧ ∀ item ∈ items, Typed item

/-! ## Which bodies are handled -/

/-- A key with a value of the type. -/
def Field (key : String) (P : Json → Prop) (pairs : List (List CodePoint × Json)) : Prop :=
  ∃ value, lookup key pairs = some value ∧ P value

/-- A key that may be missing or null. -/
def OptionalField (key : String) (P : Json → Prop) (pairs : List (List CodePoint × Json)) : Prop :=
  ∀ value, lookup key pairs = some value → Optional P value

/-- The hashes of a file, when they are a dictionary or nothing. -/
def hashesOf (pairs : List (List CodePoint × Json)) : Option (List (List CodePoint × Json)) :=
  match lookup "hashes" pairs with
  | none => some []
  | some hashes => if hashes.truthy then asDict hashes else some []

/-- What is published of a file's metadata, in both of its fields. -/
def published (pairs : List (List CodePoint × Json)) : List Json :=
  [(lookup "core-metadata" pairs).getD .null, (lookup "dist-info-metadata" pairs).getD .null]

/-- The hashes of a file's metadata. -/
def metadataOf (pairs : List (List CodePoint × Json)) : List (List CodePoint × Json) :=
  ((published pairs).findSome? asDict).getD []

/-- A dictionary of some kind. -/
def OnDict (P : List (List CodePoint × Json) → Prop) (raw : Json) : Prop :=
  ∃ pairs, raw = .obj pairs ∧ P pairs

/-- A file that is read. -/
def FileReads (pairs : List (List CodePoint × Json)) : Prop :=
  lookup "filename" pairs ≠ none ∧ lookup "url" pairs ≠ none ∧ hashesOf pairs ≠ none

/-- A file that lacks a key. -/
def FileLacks (pairs : List (List CodePoint × Json)) : Prop :=
  lookup "filename" pairs = none ∨ lookup "url" pairs = none

/-- A file with all its values of their types. -/
structure FileFits (pairs : List (List CodePoint × Json)) : Prop where
  filename : Field "filename" IsStr pairs
  url : Field "url" IsStr pairs
  hashes : ∃ hashes, hashesOf pairs = some hashes ∧ OptionalField "sha256" IsStr hashes
  metadata : OptionalField "sha256" IsStr (metadataOf pairs)
  size : OptionalField "size" IsInt pairs
  uploadTime : OptionalField "upload-time" IsStr pairs
  requiresPython : OptionalField "requires-python" IsStr pairs

/-- A project that is read. -/
def ProjectReads (pairs : List (List CodePoint × Json)) : Prop :=
  lookup "name" pairs ≠ none ∧ lookup "_last-serial" pairs ≠ none

/-- A project that lacks a key. -/
def ProjectLacks (pairs : List (List CodePoint × Json)) : Prop :=
  lookup "name" pairs = none ∨ lookup "_last-serial" pairs = none

/-- A project with its values of their types. -/
def ProjectFits (pairs : List (List CodePoint × Json)) : Prop :=
  Field "name" IsStr pairs ∧ Field "_last-serial" IsInt pairs

/-- The first defect of the items is a missing key, or they have none. -/
def ItemsFit (Reads Lacks Fits : Json → Prop) (serial : Json) (elements : List Json) : Prop :=
  (∃ before item after, elements = before ++ item :: after ∧ (∀ x ∈ before, Reads x) ∧ Lacks item) ∨
    IsInt serial ∧ ∀ x ∈ elements, Fits x

/-- A dictionary that lacks the key or has such a value for it. -/
def Finds (key : String) (P : Json → Prop) (data : Json) : Prop :=
  ∃ pairs, data = .obj pairs ∧
    (lookup key pairs = none ∨ ∃ value, lookup key pairs = some value ∧ P value)

/-- A body whose first defect is a missing key, or which has none. -/
def BodyFits (key : String) (Reads Lacks Fits : Json → Prop) (data : Json) : Prop :=
  Finds "meta" (fun info => Finds "_last-serial" (fun serial => Finds key (fun items =>
    ∃ elements, iterate items = .ok elements ∧ ItemsFit Reads Lacks Fits serial elements) data)
      info) data

/-! ## Items -/

section Items

variable {α : Type} {parseItem : Json → Except PyError α} {Typed : α → Prop}
  {Reads Lacks Fits : Json → Prop}

/-- What a parser of items does, by the item. -/
structure ItemParser (parseItem : Json → Except PyError α) (Typed : α → Prop)
    (Reads Lacks Fits : Json → Prop) : Prop where
  reads : ∀ x, (∃ a, parseItem x = .ok a) ↔ Reads x
  lacks : ∀ x, (∃ key, parseItem x = .error (.keyError key)) ↔ Lacks x
  fits : ∀ x, (∃ a, parseItem x = .ok a ∧ Typed a) ↔ Fits x

/-- All items are parsed, or there is a first that is not. -/
theorem mapM_cases (f : Json → Except PyError α) (l : List Json) :
    (∃ as, l.mapM f = .ok as ∧ (∀ x ∈ l, ∃ a ∈ as, f x = .ok a) ∧ ∀ a ∈ as, ∃ x ∈ l, f x = .ok a) ∨
      ∃ before x after e, l = before ++ x :: after ∧ (∀ y ∈ before, ∃ a, f y = .ok a) ∧
        f x = .error e ∧ l.mapM f = .error e := by
  induction l with
  | nil => exact .inl ⟨[], rfl, by simp, by simp⟩
  | cons y l ih =>
      rcases hy : f y with e | a
      · exact .inr ⟨[], y, l, e, rfl, by simp, hy, by simp [List.mapM_cons, hy, bind, Except.bind]⟩
      rcases ih with ⟨as, hmap, hparsed, hitems⟩ | ⟨before, x, after, e, rfl, hbefore, hx, hmap⟩
      · refine .inl ⟨a :: as, ?_, ?_, ?_⟩
        · rw [List.mapM_cons, hmap]
          simp [hy, bind, Except.bind, pure, Except.pure]
        · refine List.forall_mem_cons.mpr ⟨⟨a, List.mem_cons_self, hy⟩, fun x hx => ?_⟩
          obtain ⟨b, hb, hfx⟩ := hparsed x hx
          exact ⟨b, List.mem_cons_of_mem _ hb, hfx⟩
        · refine List.forall_mem_cons.mpr ⟨⟨y, List.mem_cons_self, hy⟩, fun b hb => ?_⟩
          obtain ⟨x, hx, hfx⟩ := hitems b hb
          exact ⟨x, List.mem_cons_of_mem _ hx, hfx⟩
      · refine .inr ⟨y :: before, x, after, e, rfl, ?_, hx, ?_⟩
        · exact List.forall_mem_cons.mpr ⟨⟨a, hy⟩, hbefore⟩
        · rw [List.mapM_cons, hmap]
          simp [hy, bind, Except.bind]

theorem mapM_append_of_error {f : Json → Except PyError α} {before : List Json} {x : Json}
    {e : PyError} (hbefore : ∀ y ∈ before, ∃ a, f y = .ok a) (hx : f x = .error e)
    (after : List Json) :
    (before ++ x :: after).mapM f = .error e := by
  induction before with
  | nil => simp [List.mapM_cons, hx, bind, Except.bind]
  | cons y before ih =>
      obtain ⟨⟨a, hy⟩, hrest⟩ := List.forall_mem_cons.mp hbefore
      rw [List.cons_append, List.mapM_cons, ih hrest]
      simp [hy, bind, Except.bind]

/-- Items that are all parsed. -/
theorem handled_parseItems_of_ok (h : ItemParser parseItem Typed Reads Lacks Fits) (serial : Json)
    {elements : List Json} {as : List α} (hmap : elements.mapM parseItem = .ok as)
    (hparsed : ∀ x ∈ elements, ∃ a ∈ as, parseItem x = .ok a)
    (hfound : ∀ a ∈ as, ∃ x ∈ elements, parseItem x = .ok a) :
    Handled Typed ((parseItems parseItem serial elements).mapError .ofPy) ↔
      ItemsFit Reads Lacks Fits serial elements := by
  have hok : (parseItems parseItem serial elements).mapError BodyError.ofPy = .ok (serial, as) := by
    rw [parseItems, hmap]
    rfl
  rw [hok]
  constructor
  · rintro (⟨_, herror⟩ | ⟨_, _, heq, hint, htyped⟩)
    · cases herror
    · obtain ⟨rfl, rfl⟩ := Prod.mk.inj (Except.ok.inj heq)
      refine .inr ⟨hint, fun x hx => (h.fits x).mp ?_⟩
      obtain ⟨a, ha, hfx⟩ := hparsed x hx
      exact ⟨a, hfx, htyped a ha⟩
  · rintro (⟨before, item, after, rfl, -, hlacks⟩ | ⟨hint, hfits⟩)
    · obtain ⟨key, herror⟩ := (h.lacks item).mpr hlacks
      obtain ⟨a, -, hfx⟩ := hparsed item (by simp)
      rw [herror] at hfx
      cases hfx
    · refine .inr ⟨serial, as, rfl, hint, fun a ha => ?_⟩
      obtain ⟨x, hx, hfx⟩ := hfound a ha
      obtain ⟨b, hb, htyped⟩ := (h.fits x).mpr (hfits x hx)
      rw [hfx] at hb
      exact Except.ok.inj hb ▸ htyped

/-- Items of which `x` is the first that is not parsed. -/
theorem handled_parseItems_of_error (h : ItemParser parseItem Typed Reads Lacks Fits)
    (serial : Json) {before after : List Json} {x : Json} {e : PyError}
    (hbefore : ∀ y ∈ before, ∃ a, parseItem y = .ok a) (hx : parseItem x = .error e) :
    Handled Typed ((parseItems parseItem serial (before ++ x :: after)).mapError .ofPy) ↔
      ItemsFit Reads Lacks Fits serial (before ++ x :: after) := by
  have hmap := mapM_append_of_error hbefore hx after
  have herror : (parseItems parseItem serial (before ++ x :: after)).mapError BodyError.ofPy =
      .error (.ofPy e) := by
    rw [parseItems, hmap]
    rfl
  rw [herror]
  constructor
  · rintro (⟨missing, heq⟩ | ⟨_, _, heq, -⟩)
    · refine .inl ⟨before, x, after, rfl, fun y hy => (h.reads y).mp (hbefore y hy), ?_⟩
      refine (h.lacks x).mp ?_
      cases e with
      | keyError key => exact ⟨key, hx⟩
      | typeError => cases heq
      | attributeError => cases heq
    · cases heq
  · rintro (⟨before', item, after', heq, hreads, hlacks⟩ | ⟨-, hfits⟩)
    · -- the item that lacks a key is the first that is not parsed
      obtain ⟨key, hitem⟩ := (h.lacks item).mpr hlacks
      have hfirst := mapM_append_of_error (fun y hy => (h.reads y).mpr (hreads y hy))
        hitem after'
      rw [← heq, hmap] at hfirst
      obtain rfl := Except.error.inj hfirst
      exact .inl ⟨key, rfl⟩
    · obtain ⟨a, hfx, -⟩ := (h.fits x).mpr (hfits x (by simp))
      rw [hx] at hfx
      cases hfx

theorem handled_parseItems_iff (h : ItemParser parseItem Typed Reads Lacks Fits) (serial : Json)
    (elements : List Json) :
    Handled Typed ((parseItems parseItem serial elements).mapError .ofPy) ↔
      ItemsFit Reads Lacks Fits serial elements := by
  rcases mapM_cases parseItem elements with ⟨as, hmap, hparsed, hfound⟩ |
    ⟨before, x, after, e, rfl, hbefore, hx, -⟩
  · exact handled_parseItems_of_ok h serial hmap hparsed hfound
  · exact handled_parseItems_of_error h serial hbefore hx

/-! ## Bodies -/

theorem not_handled_typeError :
    ¬Handled Typed (.error .typeError : Except BodyError (Json × List α)) := by
  rintro (⟨_, heq⟩ | ⟨_, _, heq, -⟩)
  · cases heq
  · cases heq

/-- A lookup, and what is done with its value. -/
theorem handled_subscript_iff (key : String) (data : Json)
    (f : Json → Except PyError (Json × List α)) :
    Handled Typed ((subscript key data >>= f).mapError .ofPy) ↔
      Finds key (fun value => Handled Typed ((f value).mapError .ofPy)) data := by
  by_cases hdict : ∃ pairs, data = .obj pairs
  · obtain ⟨pairs, rfl⟩ := hdict
    rcases hvalue : lookup key pairs with _ | value
    · refine iff_of_true (.inl ⟨key, ?_⟩) ⟨pairs, rfl, .inl hvalue⟩
      simp [subscript, hvalue, bind, Except.bind, Except.mapError, BodyError.ofPy]
    · simp [Finds, subscript, hvalue, bind, Except.bind]
  · have herror : subscript key data = .error .typeError := by
      cases data with
      | obj pairs => exact absurd ⟨pairs, rfl⟩ hdict
      | _ => rfl
    rw [herror]
    exact iff_of_false not_handled_typeError fun ⟨pairs, heq, _⟩ => hdict ⟨pairs, heq⟩

theorem handled_iterate_iff (items : Json) (f : List Json → Except PyError (Json × List α)) :
    Handled Typed ((iterate items >>= f).mapError .ofPy) ↔
      ∃ elements, iterate items = .ok elements ∧ Handled Typed ((f elements).mapError .ofPy) := by
  rcases hiter : iterate items with e | elements
  · have he : e = .typeError := by
      cases items <;> simp [iterate] at hiter <;> exact hiter.symm
    subst he
    exact iff_of_false not_handled_typeError (by simp)
  · simp [bind, Except.bind]

/-- A body is handled when the first thing wrong with it is a missing key, or nothing is. -/
theorem handled_parseBody_iff (h : ItemParser parseItem Typed Reads Lacks Fits) (key : String)
    (data : Json) :
    Handled Typed (parseBody parseItem key data) ↔ BodyFits key Reads Lacks Fits data := by
  simp only [parseBody, handled_subscript_iff, handled_iterate_iff,
    handled_parseItems_iff h, BodyFits]

end Items

/-! ## Projects and files -/

section Dicts

variable {α : Type} {parseItem : Json → Except PyError α} {Typed : α → Prop}
  {Reads Lacks Fits : List (List CodePoint × Json) → Prop}

/-- A parser of dictionaries, which takes nothing else. -/
theorem itemParser_of_dicts
    (hother : ∀ x, (¬∃ pairs, x = Json.obj pairs) →
      parseItem x = .error .typeError ∨ parseItem x = .error .attributeError)
    (hreads : ∀ pairs, (∃ a, parseItem (.obj pairs) = .ok a) ↔ Reads pairs)
    (hlacks : ∀ pairs, (∃ key, parseItem (.obj pairs) = .error (.keyError key)) ↔ Lacks pairs)
    (hfits : ∀ pairs, (∃ a, parseItem (.obj pairs) = .ok a ∧ Typed a) ↔ Fits pairs) :
    ItemParser parseItem Typed (OnDict Reads) (OnDict Lacks) (OnDict Fits) := by
  -- each outcome comes of dictionaries alone, and is decided there
  have honDict : ∀ {Q : Json → Prop} {P : List (List CodePoint × Json) → Prop},
      (∀ x, (¬∃ pairs, x = Json.obj pairs) → ¬Q x) → (∀ pairs, Q (.obj pairs) ↔ P pairs) →
        ∀ x, Q x ↔ OnDict P x := by
    intro Q P hnot hiff x
    by_cases hdict : ∃ pairs, x = .obj pairs
    · obtain ⟨pairs, rfl⟩ := hdict
      simp [OnDict, hiff]
    · exact iff_of_false (hnot x hdict) fun ⟨pairs, heq, _⟩ => hdict ⟨pairs, heq⟩
  constructor
  · refine honDict (fun x hx ⟨a, ha⟩ => ?_) hreads
    rcases hother x hx with h | h
    · rw [h] at ha
      cases ha
    · rw [h] at ha
      cases ha
  · refine honDict (fun x hx ⟨key, hkey⟩ => ?_) hlacks
    rcases hother x hx with h | h
    · rw [h] at hkey
      cases hkey
    · rw [h] at hkey
      cases hkey
  · refine honDict (fun x hx ⟨a, ha, _⟩ => ?_) hfits
    rcases hother x hx with h | h
    · rw [h] at ha
      cases ha
    · rw [h] at ha
      cases ha

end Dicts

theorem parseProject_obj (pairs : List (List CodePoint × Json)) :
    parseProject (.obj pairs) =
      match lookup "name" pairs, lookup "_last-serial" pairs with
      | none, _ => .error (.keyError "name")
      | some _, none => .error (.keyError "_last-serial")
      | some name, some serial => .ok ⟨name, serial⟩ := by
  rcases hname : lookup "name" pairs with _ | name
  · simp [parseProject, subscript, hname, bind, Except.bind]
  · rcases hserial : lookup "_last-serial" pairs with _ | serial
    · simp [parseProject, subscript, hname, hserial, bind, Except.bind]
    · simp [parseProject, subscript, hname, hserial, bind, Except.bind, pure, Except.pure]

theorem itemParser_parseProject :
    ItemParser parseProject IndexProject.Typed (OnDict ProjectReads) (OnDict ProjectLacks)
      (OnDict ProjectFits) := by
  refine itemParser_of_dicts (fun x hx => .inl ?_) (fun pairs => ?_) (fun pairs => ?_)
    fun pairs => ?_
  · cases x with
    | obj pairs => exact absurd ⟨pairs, rfl⟩ hx
    | _ => rfl
  · rw [parseProject_obj]
    rcases hname : lookup "name" pairs with _ | name
    · simp [ProjectReads, hname]
    · rcases hserial : lookup "_last-serial" pairs with _ | serial
      · simp [ProjectReads, hserial]
      · simp [ProjectReads, hname, hserial]
  · rw [parseProject_obj]
    rcases hname : lookup "name" pairs with _ | name
    · simp [ProjectLacks, hname]
    · rcases hserial : lookup "_last-serial" pairs with _ | serial
      · simp [ProjectLacks, hserial]
      · simp [ProjectLacks, hname, hserial]
  · rw [parseProject_obj]
    rcases hname : lookup "name" pairs with _ | name
    · simp [ProjectFits, Field, hname]
    · rcases hserial : lookup "_last-serial" pairs with _ | serial
      · simp [ProjectFits, Field, hserial]
      · simp only [ProjectFits, Field, hname, hserial, Option.some.injEq, exists_eq_left',
          Except.ok.injEq]
        exact ⟨fun h => ⟨h.name, h.serial⟩, fun h => ⟨h.1, h.2⟩⟩

/-- The values of a file, when its hashes are readable. -/
def fileOf (pairs hashes : List (List CodePoint × Json)) (filename url : Json) : ProjectFile :=
  let yanked := parseYanked ((lookup "yanked" pairs).getD (.bool false))
  { filename := filename
    url := url
    wheelSha256 := (lookup "sha256" hashes).getD .null
    metadataSha256 := (lookup "sha256" (metadataOf pairs)).getD .null
    hasMetadata := ((published pairs).findSome? asDict).isSome || (published pairs).any isTrue
    size := (lookup "size" pairs).getD .null
    uploadTime := (lookup "upload-time" pairs).getD .null
    requiresPython := (lookup "requires-python" pairs).getD .null
    yanked := yanked.1
    yankedReason := yanked.2 }

/-- `hashes.get`. -/
theorem get_hashes (pairs : List (List CodePoint × Json)) (key : String) :
    get key .null (if ((lookup "hashes" pairs).getD .null).truthy
      then (lookup "hashes" pairs).getD .null else .obj []) =
      match hashesOf pairs with
      | none => .error .attributeError
      | some hashes => .ok ((lookup key hashes).getD .null) := by
  rw [hashesOf]
  rcases hvalue : lookup "hashes" pairs with _ | hashes
  · rfl
  · by_cases htruthy : hashes.truthy = true
    · simp only [Option.getD_some, htruthy, if_true]
      cases hashes <;> rfl
    · simp only [Option.getD_some, htruthy]
      rfl

/-- The published hashes, and whether there is metadata. -/
theorem metadataHashes_obj (pairs : List (List CodePoint × Json)) :
    ∃ found, metadataHashes (.obj pairs) = .ok found ∧
      found.getD [] = metadataOf pairs ∧
      found.isSome =
        (((published pairs).findSome? asDict).isSome || (published pairs).any isTrue) := by
  refine ⟨(published pairs).findSome? asDict <|>
    if (published pairs).any isTrue then some [] else none, rfl, ?_⟩
  rw [metadataOf]
  rcases (published pairs).findSome? asDict with _ | hashes
  · by_cases htrue : (published pairs).any isTrue = true
    · simp [htrue]
    · simp [htrue]
  · simp

theorem parseFile_obj (pairs : List (List CodePoint × Json)) :
    parseFile (.obj pairs) =
      match lookup "filename" pairs, lookup "url" pairs, hashesOf pairs with
      | none, _, _ => .error (.keyError "filename")
      | some _, none, _ => .error (.keyError "url")
      | some _, some _, none => .error .attributeError
      | some filename, some url, some hashes => .ok (fileOf pairs hashes filename url) := by
  obtain ⟨found, hfound, hmetadata, hsome⟩ := metadataHashes_obj pairs
  have hget : ∀ key default, get key default (.obj pairs) =
      .ok ((lookup key pairs).getD default) := fun _ _ => rfl
  rcases hfilename : lookup "filename" pairs with _ | filename
  · simp [parseFile, hget, hfound, subscript, hfilename, bind, Except.bind]
  rcases hurl : lookup "url" pairs with _ | url
  · simp [parseFile, hget, hfound, subscript, hfilename, hurl, bind, Except.bind]
  rcases hhashes : hashesOf pairs with _ | hashes
  · have hattr := get_hashes pairs "sha256"
    rw [hhashes] at hattr
    simp [parseFile, hget, hfound, subscript, hfilename, hurl, hattr, bind, Except.bind]
  · have hwheel := get_hashes pairs "sha256"
    rw [hhashes] at hwheel
    have hmeta : sha256Of found = (lookup "sha256" (metadataOf pairs)).getD .null := by
      rw [← hmetadata]
      cases found <;> rfl
    simp [parseFile, hget, hfound, subscript, hfilename, hurl, hwheel, hmeta, fileOf, hsome, bind,
      Except.bind, pure, Except.pure]

theorem optional_getD_iff {P : Json → Prop} {key : String}
    {pairs : List (List CodePoint × Json)} :
    Optional P ((lookup key pairs).getD .null) ↔ OptionalField key P pairs := by
  rw [OptionalField]
  rcases lookup key pairs with _ | value
  · simp [Optional]
  · simp

/-- The types of a file's values. -/
theorem typed_fileOf_iff {pairs hashes : List (List CodePoint × Json)} {filename url : Json}
    (hfilename : lookup "filename" pairs = some filename) (hurl : lookup "url" pairs = some url)
    (hhashes : hashesOf pairs = some hashes) :
    (fileOf pairs hashes filename url).Typed ↔ FileFits pairs := by
  constructor
  · intro h
    exact
      { filename := ⟨filename, hfilename, h.filename⟩
        url := ⟨url, hurl, h.url⟩
        hashes := ⟨hashes, hhashes, optional_getD_iff.mp h.wheelSha256⟩
        metadata := optional_getD_iff.mp h.metadataSha256
        size := optional_getD_iff.mp h.size
        uploadTime := optional_getD_iff.mp h.uploadTime
        requiresPython := optional_getD_iff.mp h.requiresPython }
  · intro h
    obtain ⟨filename', hfilename', hstr⟩ := h.filename
    obtain ⟨url', hurl', hstr'⟩ := h.url
    obtain ⟨hashes', hhashes', hsha⟩ := h.hashes
    obtain rfl := Option.some.inj (hfilename.symm.trans hfilename')
    obtain rfl := Option.some.inj (hurl.symm.trans hurl')
    obtain rfl := Option.some.inj (hhashes.symm.trans hhashes')
    exact
      { filename := hstr
        url := hstr'
        wheelSha256 := optional_getD_iff.mpr hsha
        metadataSha256 := optional_getD_iff.mpr h.metadata
        size := optional_getD_iff.mpr h.size
        uploadTime := optional_getD_iff.mpr h.uploadTime
        requiresPython := optional_getD_iff.mpr h.requiresPython }

theorem itemParser_parseFile :
    ItemParser parseFile ProjectFile.Typed (OnDict FileReads) (OnDict FileLacks)
      (OnDict FileFits) := by
  refine itemParser_of_dicts (fun x hx => .inr ?_) (fun pairs => ?_) (fun pairs => ?_)
    fun pairs => ?_
  · cases x with
    | obj pairs => exact absurd ⟨pairs, rfl⟩ hx
    | _ => rfl
  · rw [parseFile_obj, FileReads]
    rcases lookup "filename" pairs with _ | filename
    · simp
    · rcases lookup "url" pairs with _ | url
      · simp
      · rcases hashesOf pairs with _ | hashes
        · simp
        · simp
  · rw [parseFile_obj, FileLacks]
    rcases lookup "filename" pairs with _ | filename
    · simp
    · rcases lookup "url" pairs with _ | url
      · simp
      · rcases hashesOf pairs with _ | hashes
        · simp
        · simp
  · rw [parseFile_obj]
    rcases hfilename : lookup "filename" pairs with _ | filename
    · refine iff_of_false (by simp) fun h => ?_
      obtain ⟨_, hsome, -⟩ := h.filename
      simp [hfilename] at hsome
    rcases hurl : lookup "url" pairs with _ | url
    · refine iff_of_false (by simp) fun h => ?_
      obtain ⟨_, hsome, -⟩ := h.url
      simp [hurl] at hsome
    rcases hhashes : hashesOf pairs with _ | hashes
    · refine iff_of_false (by simp) fun h => ?_
      obtain ⟨_, hsome, -⟩ := h.hashes
      simp [hhashes] at hsome
    · simp only [Except.ok.injEq, exists_eq_left']
      exact typed_fileOf_iff hfilename hurl hhashes

/-! ## Every body -/

/-- A response is turned into `PyPIProtocolError` or into a page of the declared types
exactly when the first thing wrong with it is a missing key, or nothing is. -/
theorem parsers_total_iff (body : Json) :
    (Handled IndexProject.Typed (parseIndexBody body) ↔
        BodyFits "projects" (OnDict ProjectReads) (OnDict ProjectLacks) (OnDict ProjectFits) body) ∧
      (Handled ProjectFile.Typed (parseProjectBody body) ↔
        BodyFits "files" (OnDict FileReads) (OnDict FileLacks) (OnDict FileFits) body) :=
  ⟨handled_parseBody_iff itemParser_parseProject "projects" body,
    handled_parseBody_iff itemParser_parseFile "files" body⟩

/-- A list raises `TypeError`, and a page goes through with a serial that is a string. -/
theorem not_total :
    parseIndexBody (.arr []) = .error .typeError ∧
      ¬Handled IndexProject.Typed (parseIndexBody (.arr [])) ∧
      ¬Handled ProjectFile.Typed (parseProjectBody (.obj
        [(codePoints "meta", .obj [(codePoints "_last-serial", .str [])]),
          (codePoints "files", .arr [])])) := by
  refine ⟨rfl, not_handled_typeError, ?_⟩
  have hok : parseProjectBody (.obj
      [(codePoints "meta", .obj [(codePoints "_last-serial", .str [])]),
        (codePoints "files", .arr [])]) = .ok (.str [], []) := by
    rfl
  rw [hok]
  rintro (⟨_, heq⟩ | ⟨_, _, heq, hint, -⟩)
  · cases heq
  · obtain ⟨rfl, -⟩ := Prod.mk.inj (Except.ok.inj heq)
    exact hint

end RerollSync.Client
