import JvmDemo.Lib.Words
import JvmDemo.Lib.Cells
import JvmDemo.Lib.Refinement
import JvmDemo.Lib.Reader
import JvmDemo.Lib.Grammar
import JvmDemo.Lib.Demand
import JvmDemo.Lib.Descent
import JvmDemo.Lib.Substring
import JvmDemo.Lib.Memory
import JvmDemo.Lib.Allocation
import JvmDemo.Lib.Memo
import JvmDemo.Classfile.Types
import JvmDemo.Classfile.Parser
import JvmDemo.Classfile.Format
import JvmDemo.Classfile.RoundTrip
import JvmDemo.Classfile.WideConstants
import JvmDemo.Classfile.Robustness
import JvmDemo.Classfile.AttributeLength
import JvmDemo.Classfile.PoolBound
import JvmDemo.Classpath.PathStrings
import JvmDemo.Classpath.ClassReader
import JvmDemo.Classpath.CreateClassReader
import JvmDemo.Classpath.SearchOrder
import JvmDemo.Runtime.Fault
import JvmDemo.Runtime.ModifiedUtf8
import JvmDemo.Runtime.Slots
import JvmDemo.Runtime.SlotAccess
import JvmDemo.Runtime.OperandStack
import JvmDemo.Runtime.TypedStack
import JvmDemo.Runtime.Class
import JvmDemo.Runtime.ConstantPool
import JvmDemo.Runtime.AccessControl
import JvmDemo.Runtime.ClassGraph
import JvmDemo.Runtime.MemberLookup
import JvmDemo.Runtime.GrowingTable
import JvmDemo.Runtime.ClassLoader
import JvmDemo.Runtime.LoadPlan
import JvmDemo.Runtime.ClassLookup
import JvmDemo.Runtime.LoaderCache
import JvmDemo.Runtime.LoadedTable
import JvmDemo.Runtime.ResolutionCache
import JvmDemo.Runtime.LoadTermination
import JvmDemo.Runtime.Thread
import JvmDemo.Runtime.Stack
import JvmDemo.Runtime.Heap
import JvmDemo.Runtime.HeapLayout
import JvmDemo.Runtime.HeapAllocation
import JvmDemo.Runtime.ObjectFields
import JvmDemo.Runtime.Layout
import JvmDemo.Runtime.Descriptor
import JvmDemo.Runtime.DescriptorParsing
import JvmDemo.Runtime.ArrayNames
import JvmDemo.Runtime.LineNumbers
import JvmDemo.Runtime.Vm
import JvmDemo.Runtime.Initialization
import JvmDemo.Instructions.BytecodeReader
import JvmDemo.Instructions.Instruction
import JvmDemo.Instructions.Encoding
import JvmDemo.Instructions.Decode
import JvmDemo.Instructions.Progress
import JvmDemo.Instructions.FrameExecution
import JvmDemo.Instructions.TypedOperands
import JvmDemo.Instructions.Arithmetic
import JvmDemo.Instructions.Comparison
import JvmDemo.Instructions.Reference
import JvmDemo.Instructions.TypeTests
import JvmDemo.Instructions.Invoke
import JvmDemo.Instructions.Invocation
import JvmDemo.Instructions.VirtualDispatch
import JvmDemo.Instructions.Isolation
import JvmDemo.Instructions.LocalVariables
import JvmDemo.Interpreter.Loop
import JvmDemo.Interpreter.Specification
import JvmDemo.Interpreter.Simulation
import JvmDemo.Interpreter.Steps
import JvmDemo.Interpreter.ExceptionHandling
import JvmDemo.Interpreter.Start
import JvmDemo.Instructions.ExactDecoding
import JvmDemo.Runtime.FrameShape
import JvmDemo.Instructions.KeptFrames
import JvmDemo.Interpreter.Calls
import JvmDemo.Interpreter.CallSimulation
import JvmDemo.Interpreter.Typing
import JvmDemo.Interpreter.TypeSoundness
import JvmDemo.Interpreter.Effects
import JvmDemo.Interpreter.RunInvariants
import JvmDemo.Interpreter.LazyInitialization
import JvmDemo.Interpreter.ClassFiles
import JvmDemo.Interpreter.FrameRule
import JvmDemo.Interpreter.ClassInitialization
import JvmDemo.Interpreter.Unwinding
import JvmDemo.Instructions.StackShuffles
import JvmDemo.Instructions.Wide
import JvmDemo.Interpreter.SwitchDispatch
import JvmDemo.Instructions.StaticFields
import JvmDemo.Instructions.StaticConstants
