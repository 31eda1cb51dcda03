import ShaderBundle.Text.Blank
import ShaderBundle.Text.Digit
import ShaderBundle.Text.Encoding
import ShaderBundle.Text.Lines
import ShaderBundle.Text.Numeral
import ShaderBundle.Text.Printable
import ShaderBundle.Text.Quoted
import ShaderBundle.Path.Lexical
import ShaderBundle.Path.Normal
import ShaderBundle.Directive
import ShaderBundle.Module
import ShaderBundle.Fault
import ShaderBundle.Library.Basic
import ShaderBundle.Library.Memory
import ShaderBundle.Library.Files
import ShaderBundle.FileTree.Basic
import ShaderBundle.Discovery
import ShaderBundle.DependencyOrder
import ShaderBundle.SourceBlock
import ShaderBundle.Shader
import ShaderBundle.Notice
import ShaderBundle.Assembly
import ShaderBundle.Assembler
import ShaderBundle.Diagnostic
import ShaderBundle.CompilerLog
import ShaderBundle.Program
import ShaderBundle.Event
import ShaderBundle.Watcher
import ShaderBundle.Workbench
import ShaderBundle.CommandLine.Switch
import ShaderBundle.CommandLine.Arguments
import ShaderBundle.CommandLine.Usage
import ShaderBundle.CommandLine.Command
import ShaderBundle.Main
import ShaderBundle.Proofs.Text.Lines
import ShaderBundle.Proofs.Text.Rows
import ShaderBundle.Proofs.Path.Characters
import ShaderBundle.Proofs.Module.Reading
import ShaderBundle.Proofs.Module.Lines
import ShaderBundle.Proofs.Module.Roles
import ShaderBundle.Proofs.Module.Directives
import ShaderBundle.Proofs.Module.Records
import ShaderBundle.Proofs.Library.Capacity
import ShaderBundle.Proofs.DependencyOrder.Table
import ShaderBundle.Proofs.DependencyOrder.Steps
import ShaderBundle.Proofs.DependencyOrder.Invariant
import ShaderBundle.Proofs.DependencyOrder.Order
import ShaderBundle.Proofs.DependencyOrder.Recursion
import ShaderBundle.Proofs.DependencyOrder.Cycle
import ShaderBundle.Proofs.Discovery.Reach
import ShaderBundle.Proofs.Discovery.Steps
import ShaderBundle.Proofs.Discovery.Run
import ShaderBundle.Proofs.Discovery.Closure
import ShaderBundle.Proofs.Discovery.Course
import ShaderBundle.Proofs.Discovery.Simulation
import ShaderBundle.Proofs.Shader.Blocks
import ShaderBundle.Proofs.Shader.Origin
import ShaderBundle.Proofs.Shader.Layout
import ShaderBundle.Proofs.Shader.Accounting
import ShaderBundle.Proofs.Shader.LineMap
import ShaderBundle.Proofs.Shader.Rows
import ShaderBundle.Proofs.Shader.Rescan
import ShaderBundle.Proofs.Shader.VersionLine
import ShaderBundle.Proofs.Assembly.Result
import ShaderBundle.Proofs.Assembly.Identifiers
import ShaderBundle.Proofs.Assembly.Cycle
import ShaderBundle.Proofs.Assembly.Outcome
import ShaderBundle.Proofs.History
import ShaderBundle.Proofs.Assembly.Loading
import ShaderBundle.Proofs.Workbench.View
import ShaderBundle.Proofs.FileTree.WorkingDirectory
import ShaderBundle.Proofs.Watcher.Steps
import ShaderBundle.Proofs.Watcher.Session
import ShaderBundle.Proofs.Watcher.Repair
import ShaderBundle.Proofs.Discovery.Agreement
import ShaderBundle.Proofs.Assembly.Dependence
import ShaderBundle.Proofs.Assembly.Bounds
import ShaderBundle.Proofs.Path.Arrival
import ShaderBundle.Proofs.Path.Climbing
import ShaderBundle.Proofs.Path.Join
import ShaderBundle.Proofs.Path.Resolution
import ShaderBundle.Proofs.Path.Canonical
import ShaderBundle.Proofs.Path.Composition
import ShaderBundle.Proofs.Path.Directory
import ShaderBundle.Proofs.Path.Spellings
import ShaderBundle.Proofs.Path.NormalJoin
import ShaderBundle.Proofs.FileTree.Location
import ShaderBundle.Proofs.FileTree.Ids
import ShaderBundle.Proofs.Assembly.SameFile
import ShaderBundle.Proofs.FileTree.Count
import ShaderBundle.Proofs.FileTree.Replay
import ShaderBundle.Proofs.Assembly.FileCycle
import ShaderBundle.Proofs.FileTree.Room
import ShaderBundle.Proofs.DependencyOrder.Marks
import ShaderBundle.Proofs.DependencyOrder.FirstVisit
import ShaderBundle.Proofs.DependencyOrder.Fixpoint
import ShaderBundle.Proofs.Assembly.Lookups
import ShaderBundle.Proofs.Text.Blank
import ShaderBundle.Proofs.Text.Numeral
import ShaderBundle.Proofs.Text.Breaks
import ShaderBundle.Proofs.Text.LineEnds
import ShaderBundle.Proofs.CompilerLog.Shape
import ShaderBundle.Proofs.CompilerLog.Legible
import ShaderBundle.Proofs.CompilerLog.Pattern
import ShaderBundle.Proofs.CompilerLog.Remapped
import ShaderBundle.Proofs.Program.Sections
import ShaderBundle.Proofs.Program.Rejection
import ShaderBundle.Proofs.Watcher.Observers
import ShaderBundle.Proofs.Watcher.Schedules
import ShaderBundle.Proofs.Watcher.Lifetimes
import ShaderBundle.Proofs.CommandLine.Bundle
import ShaderBundle.Proofs.CommandLine.Watch
import ShaderBundle.Proofs.Assembly.CanonicalIds
import ShaderBundle.Proofs.Assembly.RootLast
import ShaderBundle.Proofs.Assembly.LineEnds
import ShaderBundle.Proofs.Module.Delimiters
import ShaderBundle.Proofs.Text.Splitting
import ShaderBundle.Proofs.Text.Regex
import ShaderBundle.Proofs.Module.IncludePatterns
import ShaderBundle.Proofs.CompilerLog.Decomposition
import ShaderBundle.Proofs.CompilerLog.Expressions
import ShaderBundle.Proofs.CommandLine.Switches
import ShaderBundle.Proofs.CommandLine.Table
