import GlutSketch.Program.Text

/-!
# GlutSketch.Program.Scaffold

The fixed lines around the body of a drawing program.  The body stands inside
the function that draws; before it the surface is cleared, and after it come the
set-up of the projection and the main function, which opens a window.
-/

namespace GlutSketch.Program

/-- The lines before the body. -/
def headerLines : List String :=
  [
    "/*",
    " * FreeGLUT Drawing Code",
    " * Generated by Advanced Drawing to FreeGLUT Converter",
    " * ",
    " * To compile in CodeBlocks:",
    " * 1. Install FreeGLUT library",
    " * 2. Link libraries: -lfreeglut -lopengl32 -lglu32",
    " * 3. Compile and run",
    " */",
    "",
    "#include <GL/glut.h>",
    "#include <math.h>",
    "",
    "void display() \x7b",
    "    glClear(GL_COLOR_BUFFER_BIT);",
    "    glClearColor(1.0f, 1.0f, 1.0f, 1.0f);  // White background",
    "    "]

/-- The lines after the body. -/
def footerLines : List String :=
  [
    "",
    "    glFlush();",
    "\x7d",
    "",
    "void init() \x7b",
    "    glMatrixMode(GL_PROJECTION);",
    "    glLoadIdentity();",
    "    gluOrtho2D(-1.0, 1.0, -1.0, 1.0);",
    "    glMatrixMode(GL_MODELVIEW);",
    "    glEnable(GL_LINE_SMOOTH);",
    "    glEnable(GL_POINT_SMOOTH);",
    "    glHint(GL_LINE_SMOOTH_HINT, GL_NICEST);",
    "    glHint(GL_POINT_SMOOTH_HINT, GL_NICEST);",
    "\x7d",
    "",
    "int main(int argc, char** argv) \x7b",
    "    glutInit(&argc, argv);",
    "    glutInitDisplayMode(GLUT_SINGLE | GLUT_RGB);",
    "    glutInitWindowSize(800, 600);",
    "    glutInitWindowPosition(100, 100);",
    "    glutCreateWindow(\"Generated Drawing\");",
    "    ",
    "    init();",
    "    glutDisplayFunc(display);",
    "    ",
    "    glutMainLoop();",
    "    return 0;",
    "\x7d"]

/-- The text before the body. -/
def header : String := unlines headerLines

/-- The text after the body. -/
def footer : String := unlines footerLines

end GlutSketch.Program
