import Conventions.Grammar.Expression

/-!
# Grammar/Module — what a file takes in and hands out

Import and export statements of all dialects. An export may wrap any declaration, which is asked for
as a statement.
-/

namespace Conventions
namespace Grammar

/-- The name of something a module hands out: any word, or a string. -/
def moduleName : Parse Node := firstOf [anyName .identifier, string]

/-- Where something is taken from. -/
def fromClause : Parse Node := do
  keyword "from"
  let source ← string
  pure (source.withField (.other "source"))

/-- Further conditions on a module that is loaded. -/
def importAttribute (self : Rules) : Parse Node := do
  let s ← start
  let _ ← keywordOf ["with", "assert"]
  let o ← object self
  otherNode "import_attribute" s [o]

/-- A name with perhaps another name for it. -/
def specifier (kind : String) (imported : Bool) : Parse Node := do
  let s ← start
  let _ ← skip? do
    require (← hasTypes)
    let _ ← keywordOf ["type", "typeof"]
    require (!(← ahead (firstOf [mark ",", mark "\x7d"])))
    -- after `type` a lone `as` with an alias renames something called so
    require (!(← ahead (do keyword "as"; let _ ← word; require (!(← wordAhead "as")))))
  firstOf
    [do
      let n ← moduleName
      keyword "as"
      let alias_ ← if imported then identifier else moduleName
      otherNode kind s [n.withField .name, alias_.withField (.other "alias")],
    do
      let n ← if imported then identifier else moduleName
      otherNode kind s [n.withField .name]]

/-- Names in braces. -/
def specifiers (kind one : String) (imported : Bool) : Parse Node := do
  let s ← start
  mark "\x7b"
  let items ← maybe (commaList (specifier one imported))
  mark "\x7d"
  otherNode kind s (items.getD [])

/-- A whole module under one name. -/
def namespaceImport : Parse Node := do
  let s ← start
  mark "*"
  keyword "as"
  let n ← identifier
  otherNode "namespace_import" s [n]

/-- The names that an import declares. -/
def importClause : Parse Node := do
  let s ← start
  let several := firstOf [namespaceImport, specifiers "named_imports" "import_specifier" true]
  let parts ← firstOf
    [do
      let one ← several
      pure [one],
    do
      let n ← identifier
      let more ← maybe (do mark ","; several)
      pure (n :: more.toList)]
  otherNode "import_clause" s parts

/-- **An import.** -/
def importStatement (self : Rules) : Parse Node := do
  let s ← start
  keyword "import"
  let typed ← hasTypes
  let names := do
    let clause ← importClause
    let source ← fromClause
    pure [clause, source]
  let parts ← firstOf
    [do
      let source ← string
      pure [source.withField (.other "source")],
    names,
    do
      require typed
      let _ ← keywordOf ["type", "typeof"]
      names,
    do
      require typed
      let _ ← skip? do keyword "type"; require (!(← ahead assignMark))
      let n ← identifier
      assignMark
      keyword "require"
      mark "("
      let source ← string
      mark ")"
      let clause ← otherNode "import_require_clause" s [n, source.withField (.other "source")]
      pure [clause],
    do
      require typed
      let n ← identifier
      assignMark
      let root ← identifier
      let whole ← extend (fun left => do
        if ← skip? (mark ".") then
          let next ← identifier
          some <$> otherNode "nested_identifier" left.span.start [left, next]
        else pure none) root
      let clause ← otherNode "import_alias" s [n, whole]
      pure [clause]]
  let conditions ← maybe (importAttribute self)
  semicolon afterOther
  otherNode "import_statement" s (parts ++ conditions.toList)

/-! ## Exports -/

/-- What an export without a declaration hands out. -/
def exportedNames (self : Rules) : Parse (List Node) := do
  let typed ← hasTypes
  let _ ← skip? do
    require typed
    keyword "type"
    require (← ahead (firstOf [mark "\x7b", mark "*"]))
  let rest := do
    let source ← fromClause
    let conditions ← maybe (importAttribute self)
    pure (source :: conditions.toList)
  firstOf
    [do
      mark "*"
      rest,
    do
      let s ← start
      mark "*"
      keyword "as"
      let n ← moduleName
      let exported ← otherNode "namespace_export" s [n]
      let source ← rest
      pure (exported :: source),
    do
      let clause ← specifiers "export_clause" "export_specifier" false
      let source ← maybe rest
      pure (clause :: source.getD [])]

/-- A declaration that an export may hand out. -/
def exportedDeclaration (self : Rules) : Parse Node := do
  let d ← self .statement
  require (declarationKinds.contains d.kind.name)
  pure (d.withField (.other "declaration"))
where
  /-- The kinds of statements that declare something. -/
  declarationKinds : List String :=
    ["function_declaration", "generator_function_declaration", "class_declaration",
      "lexical_declaration", "variable_declaration", "using_declaration", "function_signature",
      "abstract_class_declaration", "module", "internal_module", "type_alias_declaration",
      "enum_declaration", "interface_declaration", "import_alias", "ambient_declaration",
      "import_statement"]

/-- What a file hands out by default. -/
def exportedDefault (self : Rules) : Parse (List Node) := do
  keyword "default"
  firstOf
    [do
      let d ← exportedDeclaration self
      pure [d],
    do
      let e ← self (.expression .ofStatement)
      semicolon afterExpression
      pure [e.withField .value]]

/-- **An export.** Decorators may stand before it. -/
def exportStatement (self : Rules) : Parse Node := do
  let s ← start
  let decorated ← decorators self
  keyword "export"
  let typed ← hasTypes
  let parts ← firstOf
    [exportedDefault self,
    do
      let ns ← exportedNames self
      semicolon afterOther
      pure ns,
    do
      let d ← exportedDeclaration self
      pure [d],
    do
      require typed
      assignMark
      let e ← self (.expression .ofStatement)
      semicolon afterExpression
      pure [e],
    do
      require typed
      keyword "as"
      keyword "namespace"
      let n ← identifier
      semicolon afterOther
      pure [n]]
  otherNode "export_statement" s (decorated ++ parts)

end Grammar
end Conventions
