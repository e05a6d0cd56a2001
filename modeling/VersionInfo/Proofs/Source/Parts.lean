import VersionInfo.Source

/-!
# The parts of a text

The preamble has a head that is the same for all records of a language, the line of a namespace in
some languages, and the attributes. The type has its guards, and the lines in front of them and
behind them.

* `preamble_eq`: the parts of the preamble.
* `typeBlock_eq`, `sourceLines_eq`: the lines around the guards of the type.
* `back_append`, `lineText_sourceLines_insert`: members stand one after another.
* `length_fileHead`, `length_attributes`, `length_typeHead`: how many lines the fixed parts have.
-/

namespace VersionInfo

theorem lineText_singleton (line : String) : lineText [line] = line ++ "\n" := by
  unfold lineText
  rw [List.flatMap_singleton, String.ofList_append, String.ofList_toList]

theorem lineText_cons (line : String) (lines : List String) :
    lineText (line :: lines) = line ++ "\n" ++ lineText lines := by
  rw [← lineText_singleton, ← lineText_append, List.singleton_append]

namespace Dialect

/-- The lines in front of the namespace and the attributes. -/
def fileHead (d : Dialect) : List String :=
  banner.map (fun line => d.comment ++ line) ++ ["", d.warningLine, ""]

/-- The attributes of the assembly. -/
def attributes (d : Dialect) (r : Record) : List String :=
  [d.assemblyAttribute "AssemblyVersionAttribute" r.assemblyVersion,
    d.assemblyAttribute "AssemblyFileVersionAttribute" r.fileVersion,
    d.assemblyAttribute "AssemblyInformationalVersionAttribute" r.informationalVersion]

/-- The lines in front of the guards. -/
def front (d : Dialect) (r : Record) : List String := d.preamble r ++ (d.typeNamespace r).1

/-- The lines behind the guards. -/
def back (d : Dialect) (r : Record) (members : NameMap FieldValue) : List String :=
  d.memberLines members ++ d.typeClose :: (d.typeNamespace r).2

variable (d : Dialect)

/-- The lines of `render_preamble` in their order: the banner, the namespace of the file, the
attributes and the end of their block. -/
theorem preamble_eq (r : Record) :
    d.preamble r =
      d.fileHead ++ (d.fileNamespace r ++ (d.attributes r ++ d.attributeBlockEnd.toList)) := by
  unfold preamble fileHead attributes
  simp only [List.append_assoc]

/-- Smaller members stand before greater ones behind the head of the type. -/
theorem back_append (r : Record) (smaller greater : NameMap FieldValue) :
    d.back r (smaller ++ greater) = d.memberLines smaller ++ d.back r greater := by
  unfold back memberLines
  rw [List.map_append, List.append_assoc]

/-- The lines of `render_type` in their order: the namespace, the head of the type, the members and
the ends. -/
theorem typeBlock_eq (r : Record) (members : NameMap FieldValue) :
    d.typeBlock r members = (d.typeNamespace r).1 ++
      (d.typeHead r.generator r.generatorRelease ++ d.back r members) := by
  unfold typeBlock back
  simp only [List.append_assoc, List.singleton_append]

theorem length_fileHead : d.fileHead.length = 12 := by
  rw [fileHead, List.length_append, List.length_map]
  rfl

theorem length_attributes (r : Record) : (d.attributes r).length = 3 := rfl

/-- The head of a type is longer where each directive guards one line only. -/
theorem length_typeHead (name version : String) :
    (d.typeHead name version).length = match d.guard with
      | .stacked => 7
      | .chained => 10 := by
  unfold typeHead
  cases d.guard <;> rfl

end Dialect

theorem sourceLines_of_emitType {d : Dialect} {r : Record} (emit : r.emitType = true)
    (members : NameMap FieldValue) :
    d.sourceLines r members = d.preamble r ++ (d.typeNamespace r).1 ++
      d.typeHead r.generator r.generatorRelease ++ members.map (fun m => d.memberLine m.1 m.2) ++
      d.typeClose :: (d.typeNamespace r).2 := by
  unfold Dialect.sourceLines Dialect.typeBlock Dialect.memberLines
  rw [if_pos emit]
  simp only [List.append_assoc, List.singleton_append]

/-- The lines of a text with its type, cut around the head of the type. -/
theorem sourceLines_eq {d : Dialect} {r : Record} (emit : r.emitType = true)
    (members : NameMap FieldValue) :
    d.sourceLines r members =
      d.front r ++ (d.typeHead r.generator r.generatorRelease ++ d.back r members) := by
  unfold Dialect.sourceLines Dialect.front
  rw [if_pos emit, Dialect.typeBlock_eq, List.append_assoc]

/-- A member among others has its line among theirs. -/
theorem lineText_sourceLines_insert {d : Dialect} {r : Record} (emit : r.emitType = true)
    (smaller greater : NameMap FieldValue) (name : String) (value : FieldValue) :
    lineText (d.sourceLines r (smaller ++ (name, value) :: greater)) =
      lineText (d.front r ++ d.typeHead r.generator r.generatorRelease ++ d.memberLines smaller) ++
        (d.memberLine name value ++ "\n") ++ lineText (d.back r greater) := by
  rw [sourceLines_eq emit, d.back_append, ← lineText_singleton, ← lineText_append,
    ← lineText_append]
  simp only [List.append_assoc]
  rfl

/-- A text with its type can be cut between any two members. -/
theorem lineText_sourceLines_append {d : Dialect} {r : Record} (emit : r.emitType = true)
    (smaller greater : NameMap FieldValue) :
    lineText (d.sourceLines r (smaller ++ greater)) =
      lineText (d.front r ++ d.typeHead r.generator r.generatorRelease ++ d.memberLines smaller) ++
        lineText (d.back r greater) := by
  rw [sourceLines_eq emit, d.back_append, ← lineText_append]
  simp only [List.append_assoc]

/-- Without its type a text is its preamble, and the members do not show. -/
theorem sourceLines_of_not_emitType {d : Dialect} {r : Record} (emit : r.emitType = false)
    (members : NameMap FieldValue) : d.sourceLines r members = d.preamble r := by
  unfold Dialect.sourceLines
  rw [emit]
  exact List.append_nil _

end VersionInfo
