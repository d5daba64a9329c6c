import SqlTree.Draft.Binary
import SqlTree.Draft.Change
import SqlTree.Draft.Definition
import SqlTree.Draft.Query

/-!
# Statements about a school

Sample statements over the tables `Student` and `Class` of the schema `school` and the table
`ClubStudent`, one of every kind that queries or changes data and one that defines a table.
-/

namespace SqlTree.School

/-- `left = right`. -/
def equal (left right : Expr) : Expr := .binary "=" left right false

/-- The female students. -/
def femaleStudents : Query :=
  runSteps Query.perform [
    .source (.ofTable (.named "Student")),
    .condition (equal (.ofColumn "gender") (.ofString "F"))] .empty

/-- A table under a label. -/
def labelled (name label : String) : Table := .schema ⟨none, name, none, some label⟩

/-- The students and their classes, by the names of the students. -/
def studentsWithClass : Query :=
  runSteps Query.perform [
    .column (.ofExpr (.ofTableColumn "s" "name")),
    .column ⟨.ofTableColumn "c" "name", some "class"⟩,
    .source ⟨labelled "Student" "s",
      [⟨.left, labelled "Class" "c",
        some (equal (.ofTableColumn "s" "class_id") (.ofTableColumn "c" "id"))⟩]⟩,
    .orderBy ⟨.ofTableColumn "s" "name", .ascending⟩] .empty

/-- The students that are in some club. -/
def clubMembers : Query :=
  runSteps Query.perform [
    .column (.ofExpr (.ofColumn "studentId")),
    .source (.ofTable (.named "ClubStudent"))] .empty

/-- How many students are in some club. -/
def clubMemberCount : Query :=
  runSteps Query.perform [
    .column (.ofExpr (.function "COUNT" [.ofColumn "*"] false)),
    .source (.ofTable (.named "Student")),
    .condition (.oneOf (.ofColumn "id") (.query clubMembers) false)] .empty

/-- The columns of the table of students. -/
def studentColumns : List ColumnDef :=
  [{ (ColumnDef.of "id" "INTEGER").required with primaryKey := true, autoIncrement := true },
    { (ColumnDef.of "name" "VARCHAR").required with length := some 64 },
    { (ColumnDef.of "gender" "CHAR").required with length := some 1 },
    .of "class_id" "INTEGER"]

/-- The table of students. -/
def createStudentTable : CreateTable :=
  runSteps CreateTable.perform
    (studentColumns.map .column ++ [.schema "school", .ifNotExists true]) (.of "Student")

/-- Two new students. -/
def insertStudents : Insertion :=
  runSteps Insertion.perform [
    .columns ["name", "gender"],
    .row [.ofString "Kennys Ng", .ofString "M"],
    .row [.ofString "Mary", .ofString "F"]] (.into "Student")

/-- A new name for one student. -/
def renameStudent : Update :=
  [Update.Step.assign "name" (.ofString "Kenny"),
    .condition (equal (.ofColumn "id") (.ofNatural 1))].foldl
    (fun u s => Update.step s u) (.of "Student")

/-- Students who leave the school. -/
def deleteGraduates : Deletion :=
  [Deletion.Step.condition (equal (.ofColumn "gender") (.ofString "F")),
    .condition (equal (.ofColumn "year") (.ofNatural 4))].foldl
    (fun d s => Deletion.step s d) (.of "Student")

/-- All sample statements. -/
def statements : List Statement :=
  [.createTable createStudentTable, .insertion insertStudents, .query femaleStudents,
    .query studentsWithClass, .query clubMemberCount, .update renameStudent,
    .deletion deleteGraduates]

/-- The sample statement with a given name. -/
def named? : String → Option Statement
  | "female_students" => some (.query femaleStudents)
  | "students_with_class" => some (.query studentsWithClass)
  | "club_member_count" => some (.query clubMemberCount)
  | "create_student_table" => some (.createTable createStudentTable)
  | "insert_students" => some (.insertion insertStudents)
  | "rename_student" => some (.update renameStudent)
  | "delete_graduates" => some (.deletion deleteGraduates)
  | _ => none

end SqlTree.School
