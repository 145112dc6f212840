/-
Sections: `catalog/taxonomy/application/section-admin.service.ts`, statement by statement, with
the inserts of categories, products and bundles that can come between.

`update` and `remove` lock the sections first: `SELECT … FOR UPDATE` reads which rows there are
and then locks them one after the other, passing over those that have been deleted meanwhile.  A
lock is a version of the row that says the same as the row.  An insert that references a section
holds a shared lock of it until its transaction ends, which keeps the row from being locked or
deleted.

The id of a section is made by its insert, so nobody can name it before the insert has
committed: a call names a section somebody has seen, or an id of no row.
-/
import BookHouse.Catalog.Catalogue
import BookHouse.Lib.Table
import BookHouse.Platform.CounterDesk
import BookHouse.Runtime

namespace BookHouse

/-- The columns of a section that its administration reads; the copy blocks are left out. -/
structure SectionRow where
  code : String
  nameBn : String
  nameEn : String
  isVisible : Bool := true
  sortOrder : ℤ := 0
deriving DecidableEq, Repr

inductive ContentKind
  | category | product | bundle
deriving DecidableEq, Repr

/-- A row that references a section. -/
structure SectionContent where
  kind : ContentKind
  sectionId : SectionId
  /-- `parentId` of a category is not null -/
  isChild : Bool := false
  isVisible : Bool := true
  deletedAt : Option Instant := none
deriving DecidableEq, Repr

/-- A category that is not deleted, or any product or bundle. -/
def SectionContent.counts (c : SectionContent) : Bool :=
  c.kind ≠ .category || c.deletedAt.isNone

structure UpdateSectionDto where
  isVisible : Option Bool := none
  nameBn : Option String := none
  nameEn : Option String := none
  sortOrder : Option ℤ := none
deriving DecidableEq, Repr

structure CreateSectionDto where
  code : String
  nameBn : String
  nameEn : String
  isVisible : Option Bool := none
deriving DecidableEq, Repr

def UpdateSectionDto.apply (dto : UpdateSectionDto) (s : SectionRow) : SectionRow :=
  { s with isVisible := dto.isVisible.getD s.isVisible, nameBn := dto.nameBn.getD s.nameBn,
           nameEn := dto.nameEn.getD s.nameEn, sortOrder := dto.sortOrder.getD s.sortOrder }

/-- What `toAdminSectionView` is given. -/
structure SectionView where
  row : SectionRow
  categories : ℕ := 0
  hiddenCategories : ℕ := 0
  products : ℕ := 0
deriving DecidableEq, Repr

structure SectionDesk where
  sections : Table TxId SectionRow
  contents : Table TxId SectionContent
  /-- the shared locks of inserts that reference a section -/
  shares : List (TxId × SectionId) := []
  /-- the rows that the lock statement of a transaction found -/
  found : TxId → Option (List SectionId) := fun _ => none

inductive SectionOp
  /-- `SELECT id FROM sections ORDER BY id FOR UPDATE` finds its rows -/
  | lockAll
  /-- it locks one of them -/
  | lock (id : SectionId)
  | find (id : SectionId)
  /-- `findUnique({ where: { code } })`, `findFirst({ where: { nameBn } })` -/
  | any (p : SectionRow → Bool)
  | countVisible (exceptId : SectionId)
  | maxSortOrder
  | update (id : SectionId) (dto : UpdateSectionDto)
  | insert (row : SectionRow)
  | delete (id : SectionId)
  /-- `count` of rows that reference a section -/
  | count (id : SectionId) (p : SectionContent → Bool)
  /-- order items with the section's code -/
  | countSold (code : String)
  | deleteContents (p : SectionContent → Bool)
  | insertContent (c : SectionContent)
  | commit
  | rollback

@[reducible] def SectionOp.Res : SectionOp → Type
  | lockAll => List SectionId
  | find _ => Option SectionRow
  | any _ => Bool
  | countVisible _ | count .. | countSold _ => ℕ
  | maxSortOrder => Option ℤ
  | update .. => SectionRow
  | insert _ => SectionId
  | lock _ | delete _ | deleteContents _ | insertContent _ | commit | rollback => Unit

/-- What the outside adds to a statement: a fault it ends with, or the order items there are. -/
structure SectionInput where
  fault : Option Fault := none
  sold : ℕ := 0
deriving DecidableEq, Repr

namespace SectionDesk

/-- The rows that `i` sees. -/
def rowsOf (s : SectionDesk) (i : TxId) : List (SectionId × SectionRow) :=
  (List.range s.sections.next).filterMap fun k => (s.sections.seen i k).map fun r => (k, r)

def contentsOf (s : SectionDesk) (i : TxId) : List SectionContent :=
  (List.range s.contents.next).filterMap fun k => s.contents.seen i k

/-- Another transaction has inserted a row that references the section. -/
def shared (s : SectionDesk) (i : TxId) (id : SectionId) : Bool :=
  s.shares.any fun l => l.1 ≠ i && l.2 = id

def lock (s : SectionDesk) (i : TxId) (id : SectionId) : Option SectionDesk :=
  match s.sections.seen i id with
  | none => some s
  | some row =>
    if s.shared i id then none
    else (s.sections.write i id (some row)).map fun sections => { s with sections }

def notFoundRow : Fault := .database "P2025" "Record not found"

/-- `Foreign key constraint violated` -/
def foreignKey : Fault := .database "P2003" "Foreign key constraint violated"

def update (s : SectionDesk) (i : TxId) (id : SectionId) (dto : UpdateSectionDto) :
    Option (Except Fault SectionRow × SectionDesk) :=
  match s.sections.seen i id with
  | none => some (.error notFoundRow, s)
  | some row => (s.sections.write i id (some (dto.apply row))).map fun sections =>
      (.ok (dto.apply row), { s with sections })

/-- A row with the code that another transaction has inserted, deleted or locked. -/
def contested (s : SectionDesk) (i : TxId) (code : String) : Bool :=
  (List.range s.sections.next).any fun k =>
    !s.sections.rows.free i k &&
      ((s.sections.committed k).any (·.code = code) ||
        ((s.sections.rows.pending k).bind (·.2)).any (·.code = code))

/-- The index on `code` makes an insert wait for such a row. -/
def insert (s : SectionDesk) (i : TxId) (row : SectionRow) :
    Option (Except Fault SectionId × SectionDesk) :=
  if s.contested i row.code then none
  else if (s.rowsOf i).any (·.2.code = row.code) then
    some (.error (Failure.unique "sections_code_key").fault, s)
  else some (.ok s.sections.next, { s with sections := s.sections.insert i row })

/-- No row may reference a section that is deleted. -/
def delete (s : SectionDesk) (i : TxId) (id : SectionId) :
    Option (Except Fault Unit × SectionDesk) :=
  match s.sections.seen i id with
  | none => some (.error notFoundRow, s)
  | some _ =>
    if s.shared i id then none
    else if (s.contentsOf i).any (·.sectionId = id) then some (.error foreignKey, s)
    else (s.sections.write i id none).map fun sections => (.ok (), { s with sections })

/-- The section has to be there, and stays while the transaction lasts. -/
def insertContent (s : SectionDesk) (i : TxId) (c : SectionContent) :
    Option (Except Fault Unit × SectionDesk) :=
  match s.sections.seen i c.sectionId with
  | none => some (.error foreignKey, s)
  | some _ =>
    if s.sections.rows.free i c.sectionId then
      some (.ok (), { s with
        contents := s.contents.insert i c, shares := (i, c.sectionId) :: s.shares })
    else none

def unlock (s : SectionDesk) (i : TxId) : List (TxId × SectionId) :=
  s.shares.filter fun l => l.1 ≠ i

def commit (s : SectionDesk) (i : TxId) : SectionDesk :=
  { s with sections := s.sections.commit i, contents := s.contents.commit i, shares := s.unlock i }

def rollback (s : SectionDesk) (i : TxId) : SectionDesk :=
  { s with
    sections := s.sections.rollback i, contents := s.contents.rollback i, shares := s.unlock i }

end SectionDesk

namespace SectionOp

/-- A statement, or `none` while it waits for another transaction. -/
def perform (i : TxId) (sold : ℕ) (s : SectionDesk) :
    (o : SectionOp) → Option (Except Fault o.Res × SectionDesk)
  | lockAll =>
    let ids := (s.rowsOf i).map (·.1)
    some (.ok ids, { s with found := Function.update s.found i (some ids) })
  | lock id => (s.lock i id).map fun s => (.ok (), s)
  | find id => some (.ok (s.sections.seen i id), s)
  | any p => some (.ok ((s.rowsOf i).any fun r => p r.2), s)
  | countVisible exceptId =>
    some (.ok ((s.rowsOf i).countP fun r => r.2.isVisible && r.1 ≠ exceptId), s)
  | maxSortOrder => some (.ok ((s.rowsOf i).map (·.2.sortOrder)).max?, s)
  | update id dto => s.update i id dto
  | insert row => s.insert i row
  | delete id => s.delete i id
  | count id p => some (.ok ((s.contentsOf i).countP fun c => c.sectionId = id && p c), s)
  | countSold _ => some (.ok sold, s)
  | deleteContents p =>
    (s.contents.deleteWhere i p).map fun contents => (.ok (), { s with contents })
  | insertContent c => s.insertContent i c
  | commit => some (.ok (), s.commit i)
  | rollback => some (.ok (), s.rollback i)

/-- A commit that fails has rolled back; the end of a failed transaction cannot fail. -/
def dropped (i : TxId) (s : SectionDesk) : SectionOp → SectionDesk
  | commit => s.rollback i
  | _ => s

def exec (i : TxId) (o : SectionOp) (x : SectionInput) (s : SectionDesk) :
    Option (Except Fault o.Res × SectionDesk) :=
  match o, x.fault with
  | rollback, _ => some (.ok (), s.rollback i)
  | o, some fault => some (.error fault, o.dropped i s)
  | o, none => o.perform i x.sold s

end SectionOp

/-- A service call whose statements others can come between; its thread is its transaction. -/
abbrev SectionService := Prog SectionOp SectionOp.Res Fault

namespace SectionService

variable {α : Type}

def ask (o : SectionOp) : SectionService o.Res := Prog.perform o

/-- `prisma.tx`: what throws is rolled back. -/
def tx (body : SectionService α) : SectionService α := do
  match ← body.catching with
  | .ok a => do
      ask .commit
      return a
  | .error fault => do
      ask .rollback
      throw fault

/-- The rows that were found are locked in the order of their ids. -/
def lockRows : List SectionId → SectionService Unit
  | [] => pure ()
  | id :: rest => do
      ask (.lock id)
      lockRows rest

/-- lock every section so two managers cannot hide the last two visible ones at once -/
def lockSections : SectionService Unit := do
  let ids ← ask .lockAll
  lockRows ids

/-- The section a call names, if it is a row's. -/
def findUnique : Option SectionId → SectionService (Option (SectionId × SectionRow))
  | some id => do
      let row ← ask (.find id)
      return row.map fun r => (id, r)
  | none => pure none

def notFound : Fault := .domain (.notFound "Section" "")

def lastVisible : Fault := .domain (.rule "section.last_visible" "অন্তত একটা বিভাগ খোলা রাখুন")

def isCategory (c : SectionContent) : Bool := c.kind = .category && c.deletedAt.isNone

def update (id : Option SectionId) (dto : UpdateSectionDto) : SectionService SectionView :=
  tx do
    lockSections
    match ← findUnique id with
    | none => throw notFound
    | some (id, cur) => do
      if dto.isVisible = some false && cur.isVisible then do
        let others ← ask (.countVisible id)
        if others = 0 then throw lastVisible
      let next ← ask (.update id dto)
      let categories ← ask (.count id isCategory)
      let hiddenCategories ← ask (.count id fun c => isCategory c && !c.isVisible)
      let products ← ask (.count id fun c => c.kind = .product && c.deletedAt.isNone)
      return { row := next, categories, hiddenCategories, products }

/-- Starts hidden by default so staff can add categories/products first. -/
def create (dto : CreateSectionDto) (toLowerCase : String → String) : SectionService SectionView :=
  let code := toLowerCase (trim dto.code)
  tx do
    if ← ask (.any fun s => s.code = code) then
      throw (.domain (.conflict "section.code_taken" s!"«{code}» কোডে আগেই একটা বিভাগ আছে"))
    if ← ask (.any fun s => s.nameBn = trim dto.nameBn) then
      throw (.domain (.conflict "section.name_taken" s!"«{dto.nameBn}» নামে আগেই একটা বিভাগ আছে"))
    let last ← ask .maxSortOrder
    let row : SectionRow :=
      { code, nameBn := trim dto.nameBn, nameEn := trim dto.nameEn,
        isVisible := dto.isVisible.getD false, sortOrder := last.getD 0 + 1 }
    let _ ← ask (.insert row)
    return { row }

def notEmpty (cats products bundles sold : ℕ) : Fault :=
  .domain (.rule "section.not_empty"
    "এই বিভাগে ক্যাটাগরি/পণ্য/বিক্রি আছে — মোছা যাবে না, লুকিয়ে রাখুন"
    [.num "categories" cats, .num "products" products, .num "bundles" bundles,
     .num "orderItems" sold])

/-- Delete an EMPTY section only. -/
def remove (id : Option SectionId) : SectionService Unit :=
  tx do
    lockSections
    match ← findUnique id with
    | none => throw notFound
    | some (id, s) => do
      let cats ← ask (.count id isCategory)
      let products ← ask (.count id fun c => c.kind = .product)
      let bundles ← ask (.count id fun c => c.kind = .bundle)
      let sold ← ask (.countSold s.code)
      if cats ≠ 0 || products ≠ 0 || bundles ≠ 0 || sold ≠ 0 then
        throw (notEmpty cats products bundles sold)
      if s.isVisible then do
        let others ← ask (.countVisible id)
        if others = 0 then throw lastVisible
      -- soft-deleted categories were emptied before deletion: remove them for real
      ask (.deleteContents fun c => c.kind = .category && c.sectionId = id &&
        c.deletedAt.isSome && c.isChild)
      ask (.deleteContents fun c => c.kind = .category && c.sectionId = id && c.deletedAt.isSome)
      ask (.delete id)

/-- Another service's insert of a category, product or bundle. -/
def addContent (c : SectionContent) : SectionService Unit := tx (ask (.insertContent c))

end SectionService

inductive SectionRequest
  | update (id : Option SectionId) (dto : UpdateSectionDto)
  | create (dto : CreateSectionDto)
  | remove (id : Option SectionId)
  | addContent (c : SectionContent)

namespace SectionRequest

def body (toLowerCase : String → String) : SectionRequest → SectionService Unit
  | update id dto => do
      let _ ← SectionService.update id dto
  | create dto => do
      let _ ← SectionService.create dto toLowerCase
  | remove id => SectionService.remove id
  | addContent c => SectionService.addContent c

/-- The section a call names. -/
def names : SectionRequest → Option SectionId
  | update id _ | remove id => id
  | create _ | addContent _ => none

end SectionRequest

/-- The row is committed, or was: it is not just being inserted, or still to come. -/
def SectionDesk.Known (s : SectionDesk) (id : SectionId) : Bool :=
  id < s.sections.next && ((s.sections.committed id).isSome || (s.sections.rows.pending id).isNone)

abbrev SectionWorld := Prog.World SectionOp SectionOp.Res Fault Unit SectionDesk

/-- Calls come in at any time and their statements interleave. -/
def sectionStep (toLowerCase : String → String) (w : SectionWorld) :
    Prog.Act SectionRequest SectionInput → Option SectionWorld
  | .start request =>
    if request.names.all w.state.Known then
      Prog.World.step SectionOp.exec (SectionRequest.body toLowerCase) w (.start request)
    else none
  | .run i x => Prog.World.step SectionOp.exec (SectionRequest.body toLowerCase) w (.run i x)

end BookHouse
