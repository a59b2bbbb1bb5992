import FirmwareDownload.Toml.Reader

/-! Documents: the table that the statements of a text build up. -/

namespace FirmwareDownload.Toml

/-- A document in the making: its entries, and the header under which assignments go. -/
structure Document where
  entries : Entries := []
  header : List String := []
  deriving Repr, Inhabited

namespace Document

def apply (document : Document) : Statement → Option Document
  | .table path => (document.entries.openTable path).map (⟨·, path.toList⟩)
  | .element path => (document.entries.openElement path).map (⟨·, path.toList⟩)
  | .assignment path value =>
    (document.entries.alter .header
      (fun _ entries => entries.assign .explicit path value) .explicit document.header).map
      (⟨·, document.header⟩)

/-- A byte order mark in front is no part of the text. -/
def skipMark : List Char → List Char
  | '\ufeff' :: rest => rest
  | cs => cs

def read (cs : List Char) : Option Entries :=
  let cs := skipMark cs
  let bound := cs.length + 1
  (readStatements bound bound cs).bind fun statements =>
    (statements.foldlM apply {}).map Document.entries

end Document

end FirmwareDownload.Toml
