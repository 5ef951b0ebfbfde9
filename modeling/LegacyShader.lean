import LegacyShader.AddressSpace
import LegacyShader.Code.BlockValidity
import LegacyShader.Code.Check
import LegacyShader.Code.ConstantValidity
import LegacyShader.Code.Folding
import LegacyShader.Code.Literal
import LegacyShader.Code.Node
import LegacyShader.Code.NodeValidity
import LegacyShader.Code.Typing
import LegacyShader.Code.Usage
import LegacyShader.Code.Workbench
import LegacyShader.Code.Written
import LegacyShader.CommandLine.Arguments
import LegacyShader.CommandLine.Compilation
import LegacyShader.CommandLine.Failure
import LegacyShader.CommandLine.FileTree
import LegacyShader.CommandLine.Log
import LegacyShader.CommandLine.Metadata
import LegacyShader.CommandLine.Path
import LegacyShader.CommandLine.Run
import LegacyShader.Decimal.Magnitude
import LegacyShader.Decimal.Number
import LegacyShader.Decimal.Power
import LegacyShader.Decimal.Shortest
import LegacyShader.Glsl.Builder
import LegacyShader.Glsl.BuiltInCode
import LegacyShader.Glsl.BuiltInFunction
import LegacyShader.Glsl.Call
import LegacyShader.Glsl.Constructor
import LegacyShader.Glsl.Conversion
import LegacyShader.Glsl.Cursor
import LegacyShader.Glsl.Declaration
import LegacyShader.Glsl.Diagnostic
import LegacyShader.Glsl.Draft
import LegacyShader.Glsl.EntryCode
import LegacyShader.Glsl.Expr
import LegacyShader.Glsl.ExprReader
import LegacyShader.Glsl.Field
import LegacyShader.Glsl.FunctionDecl
import LegacyShader.Glsl.Keyword
import LegacyShader.Glsl.Layout
import LegacyShader.Glsl.Lexeme
import LegacyShader.Glsl.Lowering
import LegacyShader.Glsl.Module
import LegacyShader.Glsl.Operation
import LegacyShader.Glsl.Overload
import LegacyShader.Glsl.Qualifiers
import LegacyShader.Glsl.Statement
import LegacyShader.Glsl.TypeWord
import LegacyShader.Json.Error
import LegacyShader.Json.Number
import LegacyShader.Json.Printer
import LegacyShader.Json.Reader
import LegacyShader.Json.Scan
import LegacyShader.Json.Skip
import LegacyShader.Json.Value
import LegacyShader.Linker
import LegacyShader.Linker.Placement
import LegacyShader.LocationPool
import LegacyShader.Main
import LegacyShader.Modern.Block
import LegacyShader.Modern.Modernize
import LegacyShader.Modern.Names
import LegacyShader.Modern.Preamble
import LegacyShader.Modern.TokenWriter
import LegacyShader.Modern.UniformDecl
import LegacyShader.Preprocess.Condition
import LegacyShader.Preprocess.Error
import LegacyShader.Preprocess.Expander
import LegacyShader.Preprocess.Lexer
import LegacyShader.Preprocess.Macro
import LegacyShader.Preprocess.NumberLiteral
import LegacyShader.Preprocess.Punct
import LegacyShader.Preprocess.Reader
import LegacyShader.Preprocess.SourceChar
import LegacyShader.Preprocess.Token
import LegacyShader.Program
import LegacyShader.ProgramFile
import LegacyShader.Proofs.AttribFailures
import LegacyShader.Proofs.AttribPlacement
import LegacyShader.Proofs.BackwardEdits
import LegacyShader.Proofs.BindingPlacement
import LegacyShader.Proofs.BlockInstances
import LegacyShader.Proofs.BlockPlacement
import LegacyShader.Proofs.CompileRuns
import LegacyShader.Proofs.DeclarationExtent
import LegacyShader.Proofs.DeclarationReadings
import LegacyShader.Proofs.Extents
import LegacyShader.Proofs.FlatExtents
import LegacyShader.Proofs.FlatNames
import LegacyShader.Proofs.FlatOrigins
import LegacyShader.Proofs.FreeSlots
import LegacyShader.Proofs.IdleAttribs
import LegacyShader.Proofs.LegacyNames
import LegacyShader.Proofs.LexemePlaces
import LegacyShader.Proofs.LineNumbers
import LegacyShader.Proofs.LinkSteps
import LegacyShader.Proofs.MemberNames
import LegacyShader.Proofs.OutputArray
import LegacyShader.Proofs.Passes
import LegacyShader.Proofs.PatchedModules
import LegacyShader.Proofs.PoolRuns
import LegacyShader.Proofs.ProgramFileCuts
import LegacyShader.Proofs.ProgramFileFormat
import LegacyShader.Proofs.ProgramLifecycle
import LegacyShader.Proofs.ProvisionalNumbers
import LegacyShader.Proofs.ReaderPlaces
import LegacyShader.Proofs.ReflectionWellFormed
import LegacyShader.Proofs.Reservations
import LegacyShader.Proofs.ShaderLifecycle
import LegacyShader.Proofs.SharedLocations
import LegacyShader.Proofs.SidePaths
import LegacyShader.Proofs.StoredFiles
import LegacyShader.Proofs.Stripped
import LegacyShader.Proofs.TextPlaces
import LegacyShader.Proofs.TokenOrigins
import LegacyShader.Proofs.UniformBytes
import LegacyShader.Proofs.UniformCoverage
import LegacyShader.Proofs.UniformGrammar
import LegacyShader.Proofs.UniformScan
import LegacyShader.Proofs.UniformSpelling
import LegacyShader.Proofs.Utf8
import LegacyShader.Proofs.VaryingPlacement
import LegacyShader.Proofs.VaryingStack
import LegacyShader.Reflection
import LegacyShader.Reflection.Flatten
import LegacyShader.Reflection.Json
import LegacyShader.Reflection.Stage
import LegacyShader.Shader
import LegacyShader.ShaderModule
import LegacyShader.ShaderModule.Validation
import LegacyShader.ShaderType
import LegacyShader.ShaderType.Alignment
import LegacyShader.ShaderType.Footprint
import LegacyShader.ShaderType.Shown
import LegacyShader.ShaderType.Validity
import LegacyShader.Spirv.Interface
import LegacyShader.Spirv.Words
import LegacyShader.Stage
import LegacyShader.StageInterface
import LegacyShader.StageSet
import LegacyShader.TexelFormat
import LegacyShader.Text.Blank
import LegacyShader.Text.CombiningTable
import LegacyShader.Text.Identifier
import LegacyShader.Text.IdentifierTable
import LegacyShader.Text.Offset
import LegacyShader.Text.Quoted
import LegacyShader.Text.UnseenTable
import LegacyShader.Text.Utf8
import LegacyShader.VariableKind
import LegacyShader.Wgsl
import LegacyShader.Proofs.TokenGaps
import LegacyShader.Proofs.UniformAccount
import LegacyShader.Proofs.CheckedWords
import LegacyShader.Proofs.Footprints
import LegacyShader.Proofs.PrintedValues
import LegacyShader.Proofs.ProvisionalLayout
import LegacyShader.Proofs.ReflectionText
import LegacyShader.Proofs.WordPools
